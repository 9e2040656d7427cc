import ApiTemplate.Stream.Utf8
import Mathlib.Data.List.Forall2

/-!
# URL queries

`urllib.parse.parse_qs` with `keep_blank_values=True`: a query is split at `&`, each field at its
first `=`, `+` and percent escapes are decoded, and the values are grouped by name in the order of
first occurrence. Queries that differ in the value of one field give groups that differ under the
name of that field alone.
-/

namespace UrlQuery

/-! ## Decoding -/

/-- The value of a hexadecimal digit. -/
def hexValue (c : Char) : Option ℕ :=
  if '0' ≤ c ∧ c ≤ '9' then some (c.toNat - 48)
  else if 'a' ≤ c ∧ c ≤ 'f' then some (c.toNat - 87)
  else if 'A' ≤ c ∧ c ≤ 'F' then some (c.toNat - 55)
  else none

/-- The byte of a percent escape. -/
def escapedByte (a b : Char) : Option UInt8 := do
  let hi ← hexValue a
  let lo ← hexValue b
  pure (UInt8.ofNat (hi * 16 + lo))

/-- The bytes of the longest ASCII start of a text, and what follows. An escape that is not one
stays as it is. -/
def asciiBytes : List Char → List UInt8 × List Char
  | [] => ([], [])
  | '%' :: a :: b :: text =>
    match escapedByte a b with
    | some byte => (byte :: (asciiBytes text).1, (asciiBytes text).2)
    | none => (37 :: (asciiBytes (a :: b :: text)).1, (asciiBytes (a :: b :: text)).2)
  | c :: text =>
    if c.toNat < 128 then (UInt8.ofNat c.toNat :: (asciiBytes text).1, (asciiBytes text).2)
    else ([], c :: text)

/-- `unquote(text, "utf-8", "replace")`, with fuel for every character: every ASCII run is decoded
on its own. -/
def unquote : ℕ → List Char → List Char
  | 0, _ => []
  | _ + 1, [] => []
  | fuel + 1, c :: text =>
    if c.toNat < 128 then
      let (bytes, rest) := asciiBytes (c :: text)
      Utf8.decodeChars bytes.length bytes ++ unquote fuel rest
    else c :: unquote fuel text

/-- A name or a value: `+` is a space. -/
def decodePart (part : List Char) : String :=
  let part := part.map fun c => if c = '+' then ' ' else c
  String.ofList (unquote part.length part)

/-! ## Fields -/

/-- `name_value.split("=", 1)` -/
def parseField (field : List Char) : String × String :=
  (decodePart (field.takeWhile (· ≠ '=')), decodePart ((field.dropWhile (· ≠ '=')).drop 1))

/-- `parse_qsl` -/
def parseQsl (query : List Char) : List (String × String) :=
  ((query.splitOn '&').filter (· ≠ [])).map parseField

/-- Add a value to the group of its name. -/
def addValue (groups : List (String × List String)) (pair : String × String) :
    List (String × List String) :=
  if groups.any (·.1 = pair.1) then
    groups.map fun g => if g.1 = pair.1 then (g.1, g.2 ++ [pair.2]) else g
  else groups ++ [(pair.1, [pair.2])]

/-- `parse_qs` -/
def parseQs (query : List Char) : List (String × List String) := (parseQsl query).foldl addValue []

/-! ## Queries that differ in one value -/

/-- A query from its fields. -/
def join (fields : List (List Char)) : List Char := ['&'].intercalate fields

/-- A field with a value. -/
def field (name value : List Char) : List Char := name ++ '=' :: value

theorem parseField_field {name : List Char} (h : '=' ∉ name) (value : List Char) :
    parseField (field name value) = (decodePart name, decodePart value) := by
  have hname : ∀ c ∈ name, decide (c ≠ '=') = true := by
    intro c hc
    exact decide_eq_true fun heq => h (heq ▸ hc)
  unfold parseField field
  rw [List.takeWhile_append_of_pos hname, List.dropWhile_append_of_pos hname,
    List.takeWhile_cons_of_neg (by simp), List.dropWhile_cons_of_neg (by simp), List.append_nil]
  rfl

/-- Equal names, and equal values or groups but for some names. -/
def AlikeBut {β : Type} (hidden : String → Prop) (e e' : String × β) : Prop :=
  e.1 = e'.1 ∧ (¬hidden e.1 → e.2 = e'.2)

theorem forall₂_alikeBut_refl {β : Type} (hidden : String → Prop) (l : List (String × β)) :
    List.Forall₂ (AlikeBut hidden) l l :=
  List.forall₂_same.mpr fun _ _ => ⟨rfl, fun _ => rfl⟩

theorem field_ne_nil (name value : List Char) : field name value ≠ [] := by
  unfold field
  simp

/-- The fields of the other query. -/
theorem forall_field {fs gs : List (List Char)} {f f' : List Char}
    (h : ∀ g ∈ fs ++ f :: gs, '&' ∉ g) (h' : '&' ∉ f') : ∀ g ∈ fs ++ f' :: gs, '&' ∉ g := by
  intro g hg
  rcases List.mem_append.mp hg with hg | hg
  · exact h g (List.mem_append_left _ hg)
  · rcases List.mem_cons.mp hg with rfl | hg
    · exact h'
    · exact h g (List.mem_append_right _ (List.mem_cons_of_mem _ hg))

theorem splitOn_join {fs gs : List (List Char)} {f : List Char}
    (h : ∀ g ∈ fs ++ f :: gs, '&' ∉ g) : (join (fs ++ f :: gs)).splitOn '&' = fs ++ f :: gs :=
  List.splitOn_intercalate _ h (by simp)

theorem join_ne_nil {fs gs : List (List Char)} {name value : List Char}
    (h : ∀ g ∈ fs ++ field name value :: gs, '&' ∉ g) :
    join (fs ++ field name value :: gs) ≠ [] := by
  intro hnil
  have hsplit := splitOn_join h
  rw [hnil, List.splitOn_nil] at hsplit
  have hmem : field name value ∈ [[]] := hsplit ▸ List.mem_append_right _ List.mem_cons_self
  exact field_ne_nil name value (List.mem_singleton.mp hmem)

theorem parseQsl_alikeBut (hidden : String → Prop) {fs gs : List (List Char)}
    {name v v' : List Char} (hname : '=' ∉ name) (hhidden : hidden (decodePart name))
    (h : ∀ f ∈ fs ++ field name v :: gs, '&' ∉ f) (h' : '&' ∉ field name v') :
    List.Forall₂ (AlikeBut hidden) (parseQsl (join (fs ++ field name v :: gs)))
      (parseQsl (join (fs ++ field name v' :: gs))) := by
  unfold parseQsl
  rw [splitOn_join h, splitOn_join (forall_field h h'), List.filter_append, List.filter_append,
    List.filter_cons_of_pos (by simpa using field_ne_nil name v),
    List.filter_cons_of_pos (by simpa using field_ne_nil name v'), List.map_append,
    List.map_append, List.map_cons, List.map_cons, parseField_field hname, parseField_field hname]
  exact List.rel_append (forall₂_alikeBut_refl hidden _)
    (.cons ⟨rfl, fun hnot => absurd hhidden hnot⟩ (forall₂_alikeBut_refl hidden _))

theorem addValue_alikeBut {hidden : String → Prop} {d d' : List (String × List String)}
    {p p' : String × String} (hd : List.Forall₂ (AlikeBut hidden) d d')
    (hp : AlikeBut hidden p p') :
    List.Forall₂ (AlikeBut hidden) (addValue d p) (addValue d' p') := by
  have hany : d'.any (·.1 = p'.1) = d.any (·.1 = p.1) := by
    rw [← hp.1]
    induction hd with
    | nil => rfl
    | cons h _ ih => rw [List.any_cons, List.any_cons, ih, h.1]
  unfold addValue
  rw [hany]
  by_cases h : d.any (·.1 = p.1) = true
  · rw [if_pos h, if_pos h, List.forall₂_map_left_iff, List.forall₂_map_right_iff]
    refine hd.imp fun g g' hg => ?_
    rw [← hp.1, ← hg.1]
    by_cases hkey : g.1 = p.1
    · rw [if_pos hkey, if_pos hkey]
      refine ⟨rfl, fun hnot => ?_⟩
      show g.2 ++ [p.2] = g'.2 ++ [p'.2]
      rw [hg.2 hnot, hp.2 (hkey ▸ hnot)]
    · rw [if_neg hkey, if_neg hkey]
      exact hg
  · rw [if_neg h, if_neg h]
    refine List.rel_append hd (.cons ⟨hp.1, fun hnot => ?_⟩ .nil)
    show [p.2] = [p'.2]
    rw [hp.2 hnot]

/-- **The groups of two queries that differ in one value** differ under its name alone. -/
theorem parseQs_alikeBut (hidden : String → Prop) {fs gs : List (List Char)}
    {name v v' : List Char} (hname : '=' ∉ name) (hhidden : hidden (decodePart name))
    (h : ∀ f ∈ fs ++ field name v :: gs, '&' ∉ f) (h' : '&' ∉ field name v') :
    List.Forall₂ (AlikeBut hidden) (parseQs (join (fs ++ field name v :: gs)))
      (parseQs (join (fs ++ field name v' :: gs))) := by
  have hfold : ∀ {l l' : List (String × String)} {d d' : List (String × List String)},
      List.Forall₂ (AlikeBut hidden) l l' → List.Forall₂ (AlikeBut hidden) d d' →
        List.Forall₂ (AlikeBut hidden) (l.foldl addValue d) (l'.foldl addValue d') := by
    intro l l' d d' hl hd
    induction hl generalizing d d' with
    | nil => exact hd
    | cons hp _ ih => exact ih (addValue_alikeBut hd hp)
  exact hfold (parseQsl_alikeBut hidden hname hhidden h h') .nil

end UrlQuery
