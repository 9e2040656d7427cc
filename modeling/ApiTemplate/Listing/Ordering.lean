import ApiTemplate.Fallible.Results
import ApiTemplate.Identity.Annotated
import ApiTemplate.Stream.Regex
import Mathlib.Data.Bool.AllAny
import Mathlib.Data.Finset.Basic

/-!
# The ordering of a list

The parameter `ordering`: a gate by a pattern, a splitter, and the fields that a query allows. What
passes the gate is the rendering of exactly one list of items, which is the one that the splitter
returns.
-/

namespace ApiTemplate.Listing

open Fallible
open Identity (StringConstraints trim)

/-! ## The parser -/

inductive OrderingDirectionEnum
  | asc
  | desc
  deriving DecidableEq, Inhabited

structure OrderingItem where
  direction : OrderingDirectionEnum
  field : String
  deriving DecidableEq, Inhabited

structure OrderingContainer where
  items : List OrderingItem
  deriving DecidableEq

inductive OrderingError
  | stringTooLong
  | wrongFormat
  | unexpectedFields (fields : List String)
  deriving DecidableEq

/-- The texts of the errors; a set of fields is listed in no particular order. -/
def OrderingError.message : OrderingError → String
  | stringTooLong => "String should have at most 100 characters"
  | wrongFormat => "Ordering format is wrong"
  | unexpectedFields fields => "Unexpected fields for ordering: " ++ ", ".intercalate fields

/-- `[A-Za-z_]` -/
def fieldChars : List Char := Regex.range 'A' 'Z' ++ Regex.range 'a' 'z' ++ ['_']

/-- `-?[A-Za-z_]+` -/
def itemRegex : RegularExpression Char :=
  Regex.opt (.char '-') * Regex.plus (Regex.oneOf fieldChars)

/-- `^-?[A-Za-z_]+(?:,-?[A-Za-z_]+)*$`, where `$` matches in front of a final newline, too. -/
def orderingRegex : RegularExpression Char :=
  Regex.sepBy ',' itemRegex * Regex.opt (.char '\n')

/-- `_validate_ordering` -/
def validateOrdering (v : String) : Except OrderingError String :=
  if orderingRegex.rmatch v.toList then .ok v else .error .wrongFormat

namespace OrderingContainer

/-- The item of a part of the text. -/
def itemOf (part : List Char) : OrderingItem where
  direction := if part.head? = some '-' then .desc else .asc
  field := String.ofList (part.dropWhile (· = '-'))

/-- `OrderingContainer.from_str` -/
def fromStr (v : String) : Option OrderingContainer :=
  if v = "" then none else some { items := (v.toList.splitOn ',').map itemOf }

/-- `core_schema.str_schema(max_length=100, strip_whitespace=True)` -/
def strSchema : StringConstraints where
  maxLength := 100
  stripWhitespace := true

/-- The schema of the container on a string. -/
def parse (raw : String) : Except OrderingError (Option OrderingContainer) :=
  match strSchema.apply raw with
  | none => .error .stringTooLong
  | some v => (validateOrdering v).map fromStr

end OrderingContainer

/-! ## The query -/

namespace OrderingQueryMixin

/-- `validate_ordering` of a query that allows some fields. -/
def validateOrdering (allowed : Finset String) (ordering : Option OrderingContainer) :
    Except OrderingError (Option OrderingContainer) :=
  match ordering with
  | none => .ok ordering
  | some container =>
    let unexpected := ((container.items.map OrderingItem.field).filter (· ∉ allowed)).dedup
    if unexpected = [] then .ok ordering else .error (.unexpectedFields unexpected)

/-- The field `ordering` of a query, whose default is `None`. -/
def validate (allowed : Finset String) (raw : Option String) :
    Except OrderingError (Option OrderingContainer) :=
  match raw with
  | none => validateOrdering allowed none
  | some raw => OrderingContainer.parse raw >>= validateOrdering allowed

end OrderingQueryMixin

/-! ## Renderings -/

/-- The item in the text: a leading `-` for `desc`. -/
def OrderingItem.text (i : OrderingItem) : List Char :=
  (match i.direction with
    | .desc => ['-']
    | .asc => []) ++ i.field.toList

/-- The field is one or more characters of `[A-Za-z_]`. -/
def OrderingItem.IsWellFormed (i : OrderingItem) : Prop :=
  i.field ≠ "" ∧ ∀ c ∈ i.field.toList, Ascii.isLetter c = true ∨ c = '_'

/-- The items, joined with commas. -/
def render (items : List OrderingItem) : String :=
  String.ofList ([','].intercalate (items.map OrderingItem.text))

theorem mem_fieldChars {c : Char} : c ∈ fieldChars ↔ Ascii.isLetter c = true ∨ c = '_' := by
  unfold fieldChars
  rw [List.mem_append, List.mem_append, Regex.mem_range (by decide), Regex.mem_range (by decide),
    List.mem_singleton, Ascii.isLetter_iff]
  refine or_congr ?_ Iff.rfl
  exact or_comm

theorem toList_ne_nil {s : String} : s.toList ≠ [] ↔ s ≠ "" := by
  rw [Ne, Ne, ← String.toList_inj]
  rfl

theorem mem_itemRegex {w : List Char} :
    w ∈ itemRegex.matches' ↔ ∃ i : OrderingItem, i.IsWellFormed ∧ w = i.text := by
  unfold itemRegex
  rw [RegularExpression.matches'_mul, Language.mem_mul]
  constructor
  · rintro ⟨a, ha, b, hb, rfl⟩
    obtain ⟨hne, hall⟩ := Regex.mem_plus_oneOf.mp hb
    have hfield : ∀ direction, OrderingItem.IsWellFormed ⟨direction, String.ofList b⟩ := by
      intro direction
      refine ⟨toList_ne_nil.mp ?_, fun c hc => mem_fieldChars.mp (hall c ?_)⟩
      · rwa [String.toList_ofList]
      · rwa [String.toList_ofList] at hc
    rcases Regex.mem_opt.mp ha with rfl | ha
    · exact ⟨⟨.asc, String.ofList b⟩, hfield _, by simp [OrderingItem.text]⟩
    · obtain rfl := Regex.mem_char.mp ha
      exact ⟨⟨.desc, String.ofList b⟩, hfield _, by simp [OrderingItem.text]⟩
  · rintro ⟨⟨direction, field⟩, ⟨hne, hall⟩, rfl⟩
    refine ⟨_, Regex.mem_opt.mpr ?_, field.toList, Regex.mem_plus_oneOf.mpr
      ⟨toList_ne_nil.mpr hne, fun c hc => mem_fieldChars.mpr (hall c hc)⟩, rfl⟩
    cases direction with
    | asc => exact .inl rfl
    | desc => exact .inr (Regex.mem_char.mpr rfl)

/-- The gate lets the renderings through, and their continuations by one newline. -/
theorem rmatch_orderingRegex {w : List Char} : orderingRegex.rmatch w = true ↔
    ∃ items : List OrderingItem, items ≠ [] ∧ (∀ i ∈ items, i.IsWellFormed) ∧
      (w = (render items).toList ∨ w = (render items).toList ++ ['\n']) := by
  rw [RegularExpression.rmatch_iff_matches', orderingRegex, RegularExpression.matches'_mul,
    Language.mem_mul]
  constructor
  · rintro ⟨a, ha, b, hb, rfl⟩
    obtain ⟨parts, hne, rfl, hparts⟩ := Regex.mem_sepBy.mp ha
    choose! item hitem using fun p hp => mem_itemRegex.mp (hparts p hp)
    have htext : (parts.map item).map OrderingItem.text = parts := by
      rw [List.map_map]
      exact (List.map_congr_left fun p hp => (hitem p hp).2.symm).trans (List.map_id parts)
    refine ⟨parts.map item, by simpa using hne, ?_, ?_⟩
    · intro i hi
      obtain ⟨p, hp, rfl⟩ := List.mem_map.mp hi
      exact (hitem p hp).1
    · rw [render, htext, String.toList_ofList]
      rcases Regex.mem_opt.mp hb with rfl | hb
      · exact .inl (List.append_nil _)
      · obtain rfl := Regex.mem_char.mp hb
        exact .inr rfl
  · rintro ⟨items, hne, hall, hw⟩
    have hlist : (render items).toList ∈ (Regex.sepBy ',' itemRegex).matches' := by
      refine Regex.mem_sepBy.mpr ⟨items.map OrderingItem.text, by simpa using hne, ?_, ?_⟩
      · rw [render, String.toList_ofList]
      · intro p hp
        obtain ⟨i, hi, rfl⟩ := List.mem_map.mp hp
        exact mem_itemRegex.mpr ⟨i, hall i hi, rfl⟩
    rcases hw with rfl | rfl
    · exact ⟨_, hlist, [], Regex.mem_opt.mpr (.inl rfl), List.append_nil _⟩
    · exact ⟨_, hlist, ['\n'], Regex.mem_opt.mpr (.inr (Regex.mem_char.mpr rfl)), rfl⟩

/-! ## Parsing a rendering -/

theorem isWhiteSpace_of_mem_text {i : OrderingItem} (h : i.IsWellFormed) {c : Char}
    (hc : c ∈ i.text) : Identity.isWhiteSpace c = false ∧ c ≠ ',' := by
  have hfield : c = '-' ∨ Ascii.isLetter c = true ∨ c = '_' := by
    rcases List.mem_append.mp hc with hc | hc
    · left
      cases hdir : i.direction <;> simp_all
    · exact .inr (h.2 c hc)
  rcases hfield with rfl | hletter | rfl
  · decide
  · refine ⟨Identity.isWhiteSpace_of_not_isSpace (Identity.isSpace_of_isLetter hletter), ?_⟩
    rintro rfl
    exact absurd hletter (by decide)
  · decide

theorem isWhiteSpace_of_mem_render {items : List OrderingItem}
    (h : ∀ i ∈ items, i.IsWellFormed) {c : Char} (hc : c ∈ (render items).toList) :
    Identity.isWhiteSpace c = false := by
  unfold render at hc
  rw [String.toList_ofList] at hc
  induction items with
  | nil => exact absurd hc List.not_mem_nil
  | cons i items ih =>
    obtain ⟨hi, hitems⟩ := List.forall_mem_cons.mp h
    cases items with
    | nil =>
      rw [List.map_singleton, List.intercalate_singleton] at hc
      exact (isWhiteSpace_of_mem_text hi hc).1
    | cons j items =>
      rw [List.map_cons, List.map_cons, List.intercalate_cons_cons, List.mem_append,
        List.mem_append, List.mem_singleton] at hc
      rcases hc with (hc | rfl) | hc
      · exact (isWhiteSpace_of_mem_text hi hc).1
      · decide
      · exact ih hitems hc

/-- A text without white space is stripped already. -/
theorem trim_eq_self {s : List Char} (h : ∀ c ∈ s, Identity.isWhiteSpace c = false) :
    trim s = s := by
  unfold trim
  have hfront : s.dropWhile Identity.isWhiteSpace = s := by
    rw [List.dropWhile_eq_self_iff]
    intro hpos
    rw [h _ (List.getElem_mem hpos)]
    exact Bool.false_ne_true
  rw [hfront, List.rdropWhile_eq_self_iff]
  intro hne
  rw [h _ (List.getLast_mem hne)]
  exact Bool.false_ne_true

/-- A stripped text does not end with a newline. -/
theorem trim_ne_newline {s w : List Char} : trim s ≠ w ++ ['\n'] := by
  intro h
  have hne : trim s ≠ [] := by
    rw [h]
    simp
  have hlast := List.rdropWhile_last_not Identity.isWhiteSpace
    (s.dropWhile Identity.isWhiteSpace) hne
  refine hlast ?_
  have hnewline : (trim s).getLast hne = '\n' := by
    simp only [h, List.getLast_append_singleton]
  show Identity.isWhiteSpace ((trim s).getLast hne) = true
  rw [hnewline]
  decide

theorem itemOf_text {i : OrderingItem} (h : i.IsWellFormed) :
    OrderingContainer.itemOf i.text = i := by
  obtain ⟨direction, field⟩ := i
  obtain ⟨c, cs, hcs⟩ := List.exists_cons_of_ne_nil (toList_ne_nil.mpr h.1)
  have hc : c ≠ '-' := by
    have hmem := h.2 c (by simp [hcs])
    rintro rfl
    exact absurd hmem (by decide)
  have hfield : String.ofList (c :: cs) = field := by rw [← hcs, String.ofList_toList]
  cases direction <;>
    simp [OrderingContainer.itemOf, OrderingItem.text, hcs, hc, hfield]

theorem splitOn_render {items : List OrderingItem} (hne : items ≠ [])
    (h : ∀ i ∈ items, i.IsWellFormed) :
    ((render items).toList.splitOn ',').map OrderingContainer.itemOf = items := by
  unfold render
  rw [String.toList_ofList, List.splitOn_intercalate, List.map_map]
  · exact (List.map_congr_left fun i hi => itemOf_text (h i hi)).trans (List.map_id items)
  · intro p hp
    obtain ⟨i, hi, rfl⟩ := List.mem_map.mp hp
    exact fun hc => (isWhiteSpace_of_mem_text (h i hi) hc).2 rfl
  · simpa using hne

theorem render_ne_empty {items : List OrderingItem} (hne : items ≠ [])
    (h : ∀ i ∈ items, i.IsWellFormed) : render items ≠ "" := by
  intro heq
  have hsplit := splitOn_render hne h
  obtain ⟨i, rest, rfl⟩ := List.exists_cons_of_ne_nil hne
  rw [heq] at hsplit
  have hempty : i.field = "" := by
    rw [← (List.cons.inj hsplit).1]
    rfl
  exact (h i List.mem_cons_self).1 hempty

theorem fromStr_render {items : List OrderingItem} (hne : items ≠ [])
    (h : ∀ i ∈ items, i.IsWellFormed) :
    OrderingContainer.fromStr (render items) = some { items } := by
  unfold OrderingContainer.fromStr
  rw [if_neg (render_ne_empty hne h), splitOn_render hne h]

theorem apply_strSchema (raw : String) : OrderingContainer.strSchema.apply raw =
    if (trim raw.toList).length ≤ 100 then some (String.ofList (trim raw.toList)) else none := by
  simp [StringConstraints.apply, StringConstraints.stripped, StringConstraints.fits,
    StringConstraints.lowered, OrderingContainer.strSchema]

theorem validateOrdering_eq_ok_iff {s : List Char} {v : String} :
    validateOrdering (String.ofList s) = .ok v ↔
      orderingRegex.rmatch s = true ∧ v = String.ofList s := by
  unfold validateOrdering
  rw [String.toList_ofList]
  split
  · rename_i h
    exact ⟨fun hv => ⟨h, (Except.ok.inj hv).symm⟩, fun hv => hv.2 ▸ rfl⟩
  · rename_i h
    exact ⟨nofun, fun hv => absurd hv.1 h⟩

/-- What the parser makes of a text: the items of which the stripped text is the rendering. -/
theorem parse_eq_ok_iff {raw : String} {result : Option OrderingContainer} :
    OrderingContainer.parse raw = .ok result ↔
      (trim raw.toList).length ≤ 100 ∧ ∃ items : List OrderingItem, items ≠ [] ∧
        (∀ i ∈ items, i.IsWellFormed) ∧ String.ofList (trim raw.toList) = render items ∧
        result = some { items } := by
  unfold OrderingContainer.parse
  rw [apply_strSchema]
  by_cases hlength : (trim raw.toList).length ≤ 100
  · rw [if_pos hlength]
    simp only [hlength, true_and, map_eq_ok, validateOrdering_eq_ok_iff, rmatch_orderingRegex]
    constructor
    · rintro ⟨v, ⟨⟨items, hne, hall, hitems⟩, rfl⟩, rfl⟩
      have hrender := hitems.resolve_right trim_ne_newline
      rw [hrender, String.ofList_toList]
      exact ⟨items, hne, hall, rfl, fromStr_render hne hall⟩
    · rintro ⟨items, hne, hall, hrender, rfl⟩
      refine ⟨_, ⟨⟨items, hne, hall, .inl ?_⟩, rfl⟩, ?_⟩
      · rw [← hrender, String.toList_ofList]
      · rw [hrender, fromStr_render hne hall]
  · rw [if_neg hlength]
    exact ⟨nofun, fun h => absurd h.1 hlength⟩

theorem validateOrdering_some {allowed : Finset String} {container : OrderingContainer} :
    (∃ result, OrderingQueryMixin.validateOrdering allowed (some container) = .ok result) ↔
      ∀ i ∈ container.items, i.field ∈ allowed := by
  unfold OrderingQueryMixin.validateOrdering
  have hnone : ((container.items.map OrderingItem.field).filter (· ∉ allowed)).dedup = [] ↔
      ∀ i ∈ container.items, i.field ∈ allowed := by
    rw [List.dedup_eq_nil, List.filter_eq_nil_iff]
    simp
  dsimp only
  split
  · rename_i h
    exact iff_of_true ⟨_, rfl⟩ (hnone.mp h)
  · rename_i h
    refine iff_of_false ?_ fun hall => h (hnone.mpr hall)
    rintro ⟨result, hresult⟩
    cases hresult

/-! ## The grammar -/

/-- **The parser accepts the renderings of the non-empty lists of items, within 100 characters and
up to surrounding white space, and returns the list; a query accepts those whose fields it allows.**
-/
theorem ordering_parse_render :
    (∀ v, (∃ result, OrderingContainer.parse v = .ok result) ↔
      (trim v.toList).length ≤ 100 ∧ ∃ items : List OrderingItem, items ≠ [] ∧
        (∀ i ∈ items, i.IsWellFormed) ∧ String.ofList (trim v.toList) = render items) ∧
    (∀ v result, OrderingContainer.parse v = .ok result →
      ∃ container, OrderingContainer.fromStr (String.ofList (trim v.toList)) = some container ∧
        result = some container ∧ render container.items = String.ofList (trim v.toList)) ∧
    (∀ items : List OrderingItem, items ≠ [] → (∀ i ∈ items, i.IsWellFormed) →
      (render items).length ≤ 100 → OrderingContainer.parse (render items) = .ok (some { items })) ∧
    ∀ (allowed : Finset String) v,
      (∃ result, OrderingQueryMixin.validate allowed (some v) = .ok result) ↔
        ∃ container, OrderingContainer.parse v = .ok (some container) ∧
          ∀ i ∈ container.items, i.field ∈ allowed := by
  refine ⟨fun v => ?_, fun v result h => ?_, fun items hne hall hlength => ?_, fun allowed v => ?_⟩
  · constructor
    · rintro ⟨result, h⟩
      obtain ⟨hlength, items, hne, hall, hrender, -⟩ := parse_eq_ok_iff.mp h
      exact ⟨hlength, items, hne, hall, hrender⟩
    · rintro ⟨hlength, items, hne, hall, hrender⟩
      exact ⟨_, parse_eq_ok_iff.mpr ⟨hlength, items, hne, hall, hrender, rfl⟩⟩
  · obtain ⟨-, items, hne, hall, hrender, rfl⟩ := parse_eq_ok_iff.mp h
    refine ⟨{ items }, ?_, rfl, hrender.symm⟩
    rw [hrender, fromStr_render hne hall]
  · have htrim : trim (render items).toList = (render items).toList :=
      trim_eq_self fun c hc => isWhiteSpace_of_mem_render hall hc
    refine parse_eq_ok_iff.mpr ⟨?_, items, hne, hall, ?_, rfl⟩
    · rwa [htrim]
    · rw [htrim, String.ofList_toList]
  · unfold OrderingQueryMixin.validate
    simp only [bind_eq_ok]
    constructor
    · rintro ⟨result, parsed, hparse, hresult⟩
      obtain ⟨-, items, -, -, -, rfl⟩ := parse_eq_ok_iff.mp hparse
      exact ⟨{ items }, hparse, validateOrdering_some.mp ⟨result, hresult⟩⟩
    · rintro ⟨container, hparse, hall⟩
      obtain ⟨result, hresult⟩ := validateOrdering_some.mpr hall
      exact ⟨result, some container, hparse, hresult⟩

/-- The newest users first, then by address. -/
def newestFirst : List OrderingItem := [⟨.desc, "created_at"⟩, ⟨.asc, "email"⟩]

theorem newestFirst_isWellFormed : ∀ i ∈ newestFirst, i.IsWellFormed := by
  refine List.forall_mem_cons.mpr ⟨⟨by decide, ?_⟩, List.forall_mem_singleton.mpr ⟨by decide, ?_⟩⟩
  · exact List.all_iff_forall_prop.mp (by decide)
  · exact List.all_iff_forall_prop.mp (by decide)

theorem parse_newestFirst : render newestFirst = "-created_at,email" ∧
    OrderingContainer.parse (render newestFirst) = .ok (some { items := newestFirst }) :=
  ⟨by decide, ordering_parse_render.2.2.1 newestFirst (by decide) newestFirst_isWellFormed
    (by decide)⟩

end ApiTemplate.Listing
