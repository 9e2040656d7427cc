import ApiTemplate.Utils.JsonLiterals

/-!
# Values that JSON gives back

What `json.loads` makes of the text that `json.dumps` writes, and when it is equal to the value that
was written. Keys come back as strings and tuples as lists; two surrogates come back as the
character that they stand for.
-/

namespace ApiTemplate.Utils

open Binary64 JsonDocument JsonReader Security Utf16
open Numerals hiding number

/-! ## Writing and reading -/

mutual

/-- The document of a value; its members stay in their order. -/
def plainDocument : Value PyFloat → Except PyError Doc
  | .scalar s => scalarDoc pyFloats s
  | .list items => (plainDocuments items).map .array
  | .tuple items => (plainDocuments items).map .array
  | .dict entries => (plainMembers entries).map .object

def plainDocuments : List (Value PyFloat) → Except PyError (List Doc)
  | [] => .ok []
  | item :: items => do
    let d ← plainDocument item
    let ds ← plainDocuments items
    return d :: ds

def plainMembers :
    List (Scalar PyFloat × Value PyFloat) → Except PyError (List (List CodeUnit × Doc))
  | [] => .ok []
  | (key, value) :: entries => do
    let key ← keyUnits pyFloats key
    let d ← plainDocument value
    let ds ← plainMembers entries
    return (key, d) :: ds

end

/-- `json.dumps(x)` -/
def jsonDumps (x : Value PyFloat) : Except PyError (List Char) := (plainDocument x).map spaced

mutual

/-- The value of a JSON document. -/
def ofJson : Json (Scalar PyFloat) → Value PyFloat
  | .literal s => .scalar s
  | .str s => .scalar (.str s)
  | .array items => .list (ofJsons items)
  | .object members => .dict (ofMembers members)

def ofJsons : List (Json (Scalar PyFloat)) → List (Value PyFloat)
  | [] => []
  | item :: items => ofJson item :: ofJsons items

def ofMembers : List (Str × Json (Scalar PyFloat)) → List (Scalar PyFloat × Value PyFloat)
  | [] => []
  | (key, json) :: members => (.str key, ofJson json) :: ofMembers members

end

/-- `json.loads(text)`; none where it raises. -/
def jsonLoads (space : Char → Bool) (text : List Char) : Option (Value PyFloat) :=
  (JsonReader.read (readLiteral space) text).map ofJson

/-! ## Equality -/

/-- Both are numbers, at the same place. -/
def samePlace : Option (ℤ × ℚ) → Option (ℤ × ℚ) → Bool
  | some p, some q => p = q
  | _, _ => false

/-- `s == t`; numbers are compared as numbers, whatever their types. -/
def scalarEq (s t : Scalar PyFloat) : Bool :=
  match s, t with
  | .none, .none => true
  | .str a, .str b => a = b
  | s, t => samePlace ((number s).bind position) ((number t).bind position)

/-- The value of a key that is equal to `key`. -/
def lookup (key : Scalar PyFloat) :
    List (Scalar PyFloat × Value PyFloat) → Option (Value PyFloat)
  | [] => none
  | entry :: entries => if scalarEq key entry.1 then some entry.2 else lookup key entries

mutual

/-- `v == w` -/
def valueEq : Value PyFloat → Value PyFloat → Bool
  | .scalar s, .scalar t => scalarEq s t
  | .list vs, .list ws => itemsEq vs ws
  | .tuple vs, .tuple ws => itemsEq vs ws
  | .dict es, .dict fs => es.length = fs.length && entriesEq es fs
  | _, _ => false

def itemsEq : List (Value PyFloat) → List (Value PyFloat) → Bool
  | [], [] => true
  | v :: vs, w :: ws => valueEq v w && itemsEq vs ws
  | _, _ => false

/-- Each entry is one of `fs`. -/
def entriesEq : List (Scalar PyFloat × Value PyFloat) →
    List (Scalar PyFloat × Value PyFloat) → Bool
  | [], _ => true
  | (key, v) :: es, fs =>
    (match lookup key fs with
      | some w => valueEq v w
      | none => false) && entriesEq es fs

end

/-! ## Well-formed and faithful values -/

mutual

/-- The keys of every dictionary are distinct. -/
def WellFormed : Value PyFloat → Prop
  | .scalar _ => True
  | .list items => WellFormedItems items
  | .tuple items => WellFormedItems items
  | .dict entries =>
    (entries.Pairwise fun e f => scalarEq e.1 f.1 = false) ∧ WellFormedEntries entries

def WellFormedItems : List (Value PyFloat) → Prop
  | [] => True
  | v :: vs => WellFormed v ∧ WellFormedItems vs

def WellFormedEntries : List (Scalar PyFloat × Value PyFloat) → Prop
  | [] => True
  | (_, v) :: entries => WellFormed v ∧ WellFormedEntries entries

end

/-- A `dict`. -/
structure PyDict where
  entries : List (Scalar PyFloat × Value PyFloat)
  wellFormed : WellFormed (.dict entries)

def FaithfulScalar : Scalar PyFloat → Prop
  | .int n => n.natAbs < 10 ^ MAX_STR_DIGITS
  | .float x => x ≠ .nan
  | .str s => Unjoined s
  | .other => False
  | _ => True

mutual

/-- Keys are strings, lists are no tuples, integers are not too long, no number is `nan`, and in no
string do two surrogates stand for a character. -/
def Faithful : Value PyFloat → Prop
  | .scalar s => FaithfulScalar s
  | .list items => FaithfulItems items
  | .tuple _ => False
  | .dict entries => FaithfulEntries entries

def FaithfulItems : List (Value PyFloat) → Prop
  | [] => True
  | v :: vs => Faithful v ∧ FaithfulItems vs

def FaithfulEntries : List (Scalar PyFloat × Value PyFloat) → Prop
  | [] => True
  | (key, v) :: entries => (∃ s, key = .str s ∧ Unjoined s) ∧ Faithful v ∧ FaithfulEntries entries

end

theorem faithfulEntries_iff {entries : List (Scalar PyFloat × Value PyFloat)} :
    FaithfulEntries entries ↔
      ∀ e ∈ entries, (∃ s, e.1 = .str s ∧ Unjoined s) ∧ Faithful e.2 := by
  induction entries with
  | nil => simp [FaithfulEntries]
  | cons e entries ih =>
    obtain ⟨key, v⟩ := e
    rw [FaithfulEntries, ih, List.forall_mem_cons, and_assoc]

theorem entriesEq_iff {es fs : List (Scalar PyFloat × Value PyFloat)} :
    entriesEq es fs = true ↔
      ∀ e ∈ es, ∃ w, lookup e.1 fs = some w ∧ valueEq e.2 w = true := by
  induction es with
  | nil => simp [entriesEq]
  | cons e es ih =>
    obtain ⟨key, v⟩ := e
    rw [entriesEq, Bool.and_eq_true, ih, List.forall_mem_cons]
    refine and_congr_left fun _ => ?_
    cases lookup key fs with
    | none => simp
    | some w => simp

/-! ## Scalars -/

@[simp]
theorem samePlace_none_left (q : Option (ℤ × ℚ)) : samePlace none q = false := rfl

@[simp]
theorem samePlace_none_right (p : Option (ℤ × ℚ)) : samePlace p none = false := by
  cases p <;> rfl

@[simp]
theorem samePlace_self (p : Option (ℤ × ℚ)) : samePlace p p = p.isSome := by
  cases p with
  | none => rfl
  | some p => exact decide_eq_true rfl

theorem scalarEq_str {a : Str} {t : Scalar PyFloat} :
    scalarEq (.str a) t = true ↔ t = .str a := by
  cases t with
  | str b => exact decide_eq_true_iff.trans ⟨fun h => h ▸ rfl, fun h => (Scalar.str.inj h).symm⟩
  | _ => simp [scalarEq, number]

theorem scalarEq_str_right {s : Scalar PyFloat} {a : Str} :
    scalarEq s (.str a) = true ↔ s = .str a := by
  cases s with
  | str b => exact decide_eq_true_iff.trans ⟨fun h => h ▸ rfl, Scalar.str.inj⟩
  | _ => simp [scalarEq, number]

/-- A literal that is written is equal to itself, unless it is `nan`. -/
theorem scalarEq_self_iff {s : Scalar PyFloat} {t : Token} (h : HasToken pyFloats s t) :
    scalarEq s s = true ↔ FaithfulScalar s := by
  cases h with
  | none => exact iff_of_true rfl trivial
  | bool b => exact iff_of_true (by simp [scalarEq, number, position]) trivial
  | int n t hn =>
    refine iff_of_true (by simp [scalarEq, number, position]) ?_
    have hstr := intToken_text hn
    unfold str at hstr
    split_ifs at hstr with hlength
    · exact (length_decimal_le (by decide)).mp hlength
    · exact (length_decimal_le (by decide)).mp hlength
  | float x =>
    cases x with
    | finite negative r => exact iff_of_true (by simp [scalarEq, number, position]) nofun
    | inf negative => exact iff_of_true (by simp [scalarEq, number, position]) nofun
    | nan => exact iff_of_false (by simp [scalarEq, number, position]) fun h => h rfl

/-! ## Dictionaries -/

/-- An entry, and the member that it is read as. -/
structure Reread (entry : Scalar PyFloat × Value PyFloat) (member : Str × Json (Scalar PyFloat)) :
    Prop where
  key : Unjoined member.1
  key_str : ∀ s, entry.1 = .str s → member.1 = join s
  value : valueEq entry.2 (ofJson member.2) = true ↔ Faithful entry.2

theorem length_ofMembers (members : List (Str × Json (Scalar PyFloat))) :
    (ofMembers members).length = members.length := by
  induction members with
  | nil => rfl
  | cons member members ih => rw [ofMembers, List.length_cons, List.length_cons, ih]

theorem lookup_str (s : Str) (members : List (Str × Json (Scalar PyFloat))) :
    lookup (.str s) (ofMembers members) = (Dict.get? members s).map ofJson := by
  induction members with
  | nil => rfl
  | cons member members ih =>
    rw [ofMembers, lookup, Dict.get?]
    by_cases hkey : member.1 = s
    · rw [if_pos (scalarEq_str.mpr (by rw [hkey])), if_pos hkey]
      rfl
    · rw [if_neg fun h => hkey (Scalar.str.inj (scalarEq_str.mp h)), if_neg hkey, ih]

/-- Only strings are keys of what was read. -/
theorem exists_str_of_lookup {key : Scalar PyFloat} {v : Value PyFloat}
    {members : List (Str × Json (Scalar PyFloat))} (h : lookup key (ofMembers members) = some v) :
    ∃ s, key = .str s := by
  induction members with
  | nil => cases h
  | cons member members ih =>
    rw [ofMembers, lookup] at h
    split_ifs at h with hkey
    · exact ⟨member.1, scalarEq_str_right.mp hkey⟩
    · exact ih h

/-- In related lists each element has a partner. -/
theorem exists_of_forall₂ {α β : Type} {R : α → β → Prop} {xs : List α} {ys : List β}
    (h : List.Forall₂ R xs ys) {x : α} (hx : x ∈ xs) : ∃ y ∈ ys, R x y := by
  induction h with
  | nil => exact absurd hx List.not_mem_nil
  | cons hhead _ ih =>
    rcases List.mem_cons.mp hx with rfl | hx
    · exact ⟨_, List.mem_cons_self, hhead⟩
    · obtain ⟨y, hy, hR⟩ := ih hx
      exact ⟨y, List.mem_cons_of_mem _ hy, hR⟩

section

variable {es : List (Scalar PyFloat × Value PyFloat)} {members : List (Str × Json (Scalar PyFloat))}
  (h : List.Forall₂ Reread es members)

include h

theorem keys_of_reread (hkeys : ∀ e ∈ es, ∃ s, e.1 = .str s ∧ Unjoined s) :
    es.map Prod.fst = members.map fun m => .str m.1 := by
  induction h with
  | nil => rfl
  | cons hentry _ ih =>
    obtain ⟨⟨s, hs, hunjoined⟩, hkeys⟩ := List.forall_mem_cons.mp hkeys
    rw [List.map_cons, List.map_cons, ih hkeys, hs, hentry.key_str s hs,
      (join_eq_self_iff s).mpr hunjoined]

/-- Keys that are found again are strings whose surrogates stay. -/
theorem keys_of_entriesEq
    (heq : entriesEq es (ofMembers (Dict.update [] members)) = true) :
    ∀ e ∈ es, ∃ s, e.1 = .str s ∧ Unjoined s := by
  intro e he
  obtain ⟨w, hw, -⟩ := entriesEq_iff.mp heq e he
  obtain ⟨s, hs⟩ := exists_str_of_lookup hw
  rw [hs, lookup_str] at hw
  obtain ⟨json, hjson, -⟩ := Option.map_eq_some_iff.mp hw
  have hmem := (Dict.mem_of_mem_update (Dict.mem_of_get? hjson)).resolve_left List.not_mem_nil
  obtain ⟨e', -, hread⟩ := exists_of_forall₂ h.flip hmem
  exact ⟨s, hs, Reread.key hread⟩

/-- With distinct keys that stay, each entry is found where it was. -/
theorem lookup_member (hkeys : ∀ e ∈ es, ∃ s, e.1 = .str s ∧ Unjoined s)
    (hnodup : (members.map Prod.fst).Nodup) {e : Scalar PyFloat × Value PyFloat} (he : e ∈ es) :
    ∃ json, lookup e.1 (ofMembers members) = some (ofJson json) ∧
      (valueEq e.2 (ofJson json) = true ↔ Faithful e.2) := by
  obtain ⟨s, hs, hunjoined⟩ := hkeys e he
  obtain ⟨m, hm, hread⟩ := exists_of_forall₂ h he
  have hkey : m.1 = s := (hread.key_str s hs).trans ((join_eq_self_iff s).mpr hunjoined)
  refine ⟨m.2, ?_, hread.value⟩
  rw [hs, lookup_str, ← hkey, Dict.get?_of_mem hnodup hm, Option.map_some]

/-- The keys of a dictionary stay distinct if they are strings that stay. -/
theorem nodup_keys (hdistinct : es.Pairwise fun e f => scalarEq e.1 f.1 = false)
    (hkeys : ∀ e ∈ es, ∃ s, e.1 = .str s ∧ Unjoined s) : (members.map Prod.fst).Nodup := by
  have hnodup : (es.map Prod.fst).Nodup := by
    refine List.pairwise_map.mpr (hdistinct.imp_of_mem fun he _ hne heq => ?_)
    obtain ⟨s, hs, -⟩ := hkeys _ he
    rw [← heq, hs, scalarEq_str.mpr rfl] at hne
    exact Bool.false_ne_true hne.symm
  rw [keys_of_reread h hkeys] at hnodup
  exact List.Nodup.of_map (Scalar.str (F := PyFloat)) (by rwa [List.map_map])

theorem dict_eq_iff (hdistinct : es.Pairwise fun e f => scalarEq e.1 f.1 = false) :
    valueEq (.dict es) (ofJson (.object (Dict.update [] members))) = true ↔
      FaithfulEntries es := by
  have hvalues : (∀ e ∈ es, ∃ s, e.1 = .str s ∧ Unjoined s) →
      (valueEq (.dict es) (ofJson (.object (Dict.update [] members))) = true ↔
        ∀ e ∈ es, Faithful e.2) := by
    intro hkeys
    have hnodup := nodup_keys h hdistinct hkeys
    rw [Dict.update_of_nodup (d := []) hnodup, List.nil_append, ofJson, valueEq,
      length_ofMembers, decide_eq_true h.length_eq, Bool.true_and, entriesEq_iff]
    refine forall₂_congr fun e he => ?_
    obtain ⟨json, hlookup, hvalue⟩ := lookup_member h hkeys hnodup he
    rw [hlookup, ← hvalue]
    exact ⟨fun ⟨w, hw, heq⟩ => Option.some.inj hw ▸ heq, fun heq => ⟨_, rfl, heq⟩⟩
  rw [faithfulEntries_iff]
  constructor
  · intro heq
    have hentries := heq
    rw [ofJson, valueEq, Bool.and_eq_true] at hentries
    have hkeys := keys_of_entriesEq h hentries.2
    exact fun e he => ⟨hkeys e he, (hvalues hkeys).mp heq e he⟩
  · intro hfaithful
    exact (hvalues fun e he => (hfaithful e he).1).mpr fun e he => (hfaithful e he).2

end

/-! ## Values -/

theorem reread_key {key : Scalar PyFloat} {us : List CodeUnit}
    (h : keyUnits pyFloats key = .ok us) (s : Str) (hs : key = .str s) :
    join (units us) = join s := by
  obtain rfl := hs
  obtain rfl : encode s = us := Except.ok.inj h
  exact join_encode s

section

variable {space : Char → Bool}

/-- A scalar is read back, and a string with its surrogates joined. -/
theorem scalar_eq_iff {s : Scalar PyFloat} {d : Doc} {json : Json (Scalar PyFloat)}
    (hd : scalarDoc pyFloats s = .ok d) (hjson : meaning (readLiteral space) d = some json) :
    valueEq (.scalar s) (ofJson json) = true ↔ FaithfulScalar s := by
  cases hl : literal pyFloats s with
  | error e => simp [scalarDoc, hl, Except.map] at hd
  | ok l =>
    rw [scalarDoc, hl] at hd
    obtain rfl := Except.ok.inj hd
    cases l with
    | inl t =>
      obtain rfl : Json.literal s = json := by
        rw [meaning, readLiteral_literal space hl] at hjson
        exact Option.some.inj hjson
      rw [ofJson, valueEq]
      exact scalarEq_self_iff (hasToken_of_literal pyFloats hl)
    | inr text =>
      obtain rfl := literal_eq_inr pyFloats hl
      obtain rfl : Json.str (join text) = json := by
        rw [meaning, join_encode] at hjson
        exact Option.some.inj hjson
      rw [ofJson, valueEq, scalarEq_str, Scalar.str.injEq]
      exact join_eq_self_iff text

theorem plainDocuments_cons {v : Value PyFloat} {vs : List (Value PyFloat)} {ds : List Doc} :
    plainDocuments (v :: vs) = .ok ds ↔ ∃ d rest, ds = d :: rest ∧ plainDocument v = .ok d ∧
      plainDocuments vs = .ok rest := by
  rw [plainDocuments, Fallible.bind_eq_ok]
  constructor
  · rintro ⟨d, hd, h⟩
    obtain ⟨rest, hrest, h⟩ := Fallible.bind_eq_ok.mp h
    exact ⟨d, rest, (Except.ok.inj h).symm, hd, hrest⟩
  · rintro ⟨d, rest, rfl, hd, hrest⟩
    exact ⟨d, hd, Fallible.bind_eq_ok.mpr ⟨rest, hrest, rfl⟩⟩

theorem plainMembers_cons {key : Scalar PyFloat} {v : Value PyFloat}
    {es : List (Scalar PyFloat × Value PyFloat)} {ms : List (List CodeUnit × Doc)} :
    plainMembers ((key, v) :: es) = .ok ms ↔ ∃ us d rest, ms = (us, d) :: rest ∧
      keyUnits pyFloats key = .ok us ∧ plainDocument v = .ok d ∧ plainMembers es = .ok rest := by
  rw [plainMembers, Fallible.bind_eq_ok]
  constructor
  · rintro ⟨us, hkey, h⟩
    obtain ⟨d, hd, h⟩ := Fallible.bind_eq_ok.mp h
    obtain ⟨rest, hrest, h⟩ := Fallible.bind_eq_ok.mp h
    exact ⟨us, d, rest, (Except.ok.inj h).symm, hkey, hd, hrest⟩
  · rintro ⟨us, d, rest, rfl, hkey, hd, hrest⟩
    exact ⟨us, hkey, Fallible.bind_eq_ok.mpr
      ⟨d, hd, Fallible.bind_eq_ok.mpr ⟨rest, hrest, rfl⟩⟩⟩

mutual

/-- What comes back is equal to the value exactly if the value is faithful. -/
theorem value_eq_iff : ∀ (v : Value PyFloat) {d : Doc} {json : Json (Scalar PyFloat)},
    WellFormed v → plainDocument v = .ok d → meaning (readLiteral space) d = some json →
      (valueEq v (ofJson json) = true ↔ Faithful v)
  | .scalar s, d, json, _, hd, hjson => scalar_eq_iff hd hjson
  | .list items, d, json, hwf, hd, hjson => by
    rw [plainDocument] at hd
    obtain ⟨ds, hds, rfl⟩ := Fallible.map_eq_ok.mp hd
    rw [meaning] at hjson
    obtain ⟨jsons, hjsons, rfl⟩ := Option.map_eq_some_iff.mp hjson
    rw [ofJson, valueEq, Faithful]
    exact items_eq_iff items hwf hds hjsons
  | .tuple items, d, json, hwf, hd, hjson => by
    rw [plainDocument] at hd
    obtain ⟨ds, hds, rfl⟩ := Fallible.map_eq_ok.mp hd
    rw [meaning] at hjson
    obtain ⟨jsons, hjsons, rfl⟩ := Option.map_eq_some_iff.mp hjson
    rw [ofJson]
    exact iff_of_false (by simp [valueEq]) id
  | .dict entries, d, json, hwf, hd, hjson => by
    rw [plainDocument] at hd
    obtain ⟨ms, hms, rfl⟩ := Fallible.map_eq_ok.mp hd
    rw [meaning] at hjson
    obtain ⟨members, hmembers, rfl⟩ := Option.map_eq_some_iff.mp hjson
    exact dict_eq_iff (reread_entries entries hwf.2 hms hmembers) hwf.1

theorem items_eq_iff : ∀ (vs : List (Value PyFloat)) {ds : List Doc}
    {jsons : List (Json (Scalar PyFloat))}, WellFormedItems vs → plainDocuments vs = .ok ds →
    meanings (readLiteral space) ds = some jsons →
      (itemsEq vs (ofJsons jsons) = true ↔ FaithfulItems vs)
  | [], ds, jsons, _, hds, hjsons => by
    obtain rfl := Except.ok.inj hds
    obtain rfl := Option.some.inj hjsons
    exact iff_of_true rfl trivial
  | v :: vs, ds, jsons, hwf, hds, hjsons => by
    obtain ⟨d, rest, rfl, hd, hrest⟩ := plainDocuments_cons.mp hds
    obtain ⟨json, others, hjson, hothers, rfl⟩ := meanings_cons hjsons
    rw [ofJsons, itemsEq, Bool.and_eq_true, FaithfulItems]
    exact and_congr (value_eq_iff v hwf.1 hd hjson) (items_eq_iff vs hwf.2 hrest hothers)

theorem reread_entries : ∀ (es : List (Scalar PyFloat × Value PyFloat))
    {ms : List (List CodeUnit × Doc)} {members : List (Str × Json (Scalar PyFloat))},
    WellFormedEntries es → plainMembers es = .ok ms →
    memberMeanings (readLiteral space) ms = some members → List.Forall₂ Reread es members
  | [], ms, members, _, hms, hmembers => by
    obtain rfl := Except.ok.inj hms
    obtain rfl := Option.some.inj hmembers
    exact .nil
  | (key, v) :: es, ms, members, hwf, hms, hmembers => by
    obtain ⟨us, d, rest, rfl, hkey, hd, hrest⟩ := plainMembers_cons.mp hms
    obtain ⟨json, others, hjson, hothers, rfl⟩ := memberMeanings_cons hmembers
    exact .cons ⟨unjoined_join _, reread_key hkey, value_eq_iff v hwf.1 hd hjson⟩
      (reread_entries es hwf.2 hrest hothers)

end

/-! ## Documents and their meanings -/

theorem exists_meaning_scalar {s : Scalar PyFloat} {d : Doc} (h : scalarDoc pyFloats s = .ok d) :
    ∃ json, meaning (readLiteral space) d = some json := by
  obtain ⟨l, hl, rfl⟩ := Fallible.map_eq_ok.mp h
  cases l with
  | inl t => exact ⟨_, congrArg (Option.map _) (readLiteral_literal space hl)⟩
  | inr text => exact ⟨_, rfl⟩

mutual

/-- What is written has a meaning. -/
theorem exists_meaning : ∀ (v : Value PyFloat) {d : Doc}, plainDocument v = .ok d →
    ∃ json, meaning (readLiteral space) d = some json
  | .scalar s, d, hd => exists_meaning_scalar hd
  | .list items, d, hd => by
    rw [plainDocument] at hd
    obtain ⟨ds, hds, rfl⟩ := Fallible.map_eq_ok.mp hd
    obtain ⟨jsons, hjsons⟩ := exists_meanings items hds
    exact ⟨_, by rw [meaning, hjsons]; rfl⟩
  | .tuple items, d, hd => by
    rw [plainDocument] at hd
    obtain ⟨ds, hds, rfl⟩ := Fallible.map_eq_ok.mp hd
    obtain ⟨jsons, hjsons⟩ := exists_meanings items hds
    exact ⟨_, by rw [meaning, hjsons]; rfl⟩
  | .dict entries, d, hd => by
    rw [plainDocument] at hd
    obtain ⟨ms, hms, rfl⟩ := Fallible.map_eq_ok.mp hd
    obtain ⟨members, hmembers⟩ := exists_memberMeanings entries hms
    exact ⟨_, by rw [meaning, hmembers]; rfl⟩

theorem exists_meanings : ∀ (vs : List (Value PyFloat)) {ds : List Doc},
    plainDocuments vs = .ok ds → ∃ jsons, meanings (readLiteral space) ds = some jsons
  | [], ds, hds => by
    obtain rfl := Except.ok.inj hds
    exact ⟨[], rfl⟩
  | v :: vs, ds, hds => by
    obtain ⟨d, rest, rfl, hd, hrest⟩ := plainDocuments_cons.mp hds
    obtain ⟨json, hjson⟩ := exists_meaning v hd
    obtain ⟨jsons, hjsons⟩ := exists_meanings vs hrest
    exact ⟨json :: jsons, by rw [meanings, hjson, hjsons]; rfl⟩

theorem exists_memberMeanings : ∀ (es : List (Scalar PyFloat × Value PyFloat))
    {ms : List (List CodeUnit × Doc)}, plainMembers es = .ok ms →
    ∃ members, memberMeanings (readLiteral space) ms = some members
  | [], ms, hms => by
    obtain rfl := Except.ok.inj hms
    exact ⟨[], rfl⟩
  | (key, v) :: es, ms, hms => by
    obtain ⟨us, d, rest, rfl, -, hd, hrest⟩ := plainMembers_cons.mp hms
    obtain ⟨json, hjson⟩ := exists_meaning v hd
    obtain ⟨members, hmembers⟩ := exists_memberMeanings es hrest
    exact ⟨_, by rw [memberMeanings, hjson, hmembers]; rfl⟩

end

theorem exists_scalarDoc {s : Scalar PyFloat} (h : FaithfulScalar s) :
    ∃ d, scalarDoc pyFloats s = .ok d := by
  cases s with
  | int n =>
    have hlength : (decimal n.natAbs).length ≤ MAX_STR_DIGITS :=
      (length_decimal_le (by decide)).mpr h
    have hstr : ∃ text, str n = some text := ⟨_, if_pos hlength⟩
    obtain ⟨text, htext⟩ := hstr
    have htoken : ∃ t, intToken n = .ok t := by
      unfold intToken
      split
      · exact ⟨_, rfl⟩
      · next hnone => exact absurd (htext.symm.trans hnone) nofun
    obtain ⟨t, ht⟩ := htoken
    exact ⟨.token t, by rw [scalarDoc, literal, ht]; rfl⟩
  | other => exact h.elim
  | _ => exact ⟨_, rfl⟩

mutual

/-- Faithful values can be written. -/
theorem exists_document : ∀ v : Value PyFloat, Faithful v → ∃ d, plainDocument v = .ok d
  | .scalar s, h => exists_scalarDoc h
  | .list items, h => by
    obtain ⟨ds, hds⟩ := exists_documents items h
    exact ⟨.array ds, by rw [plainDocument, hds]; rfl⟩
  | .tuple items, h => h.elim
  | .dict entries, h => by
    obtain ⟨ms, hms⟩ := exists_members entries h
    exact ⟨.object ms, by rw [plainDocument, hms]; rfl⟩

theorem exists_documents : ∀ vs : List (Value PyFloat), FaithfulItems vs →
    ∃ ds, plainDocuments vs = .ok ds
  | [], _ => ⟨[], rfl⟩
  | v :: vs, h => by
    obtain ⟨d, hd⟩ := exists_document v h.1
    obtain ⟨ds, hds⟩ := exists_documents vs h.2
    exact ⟨_, plainDocuments_cons.mpr ⟨d, ds, rfl, hd, hds⟩⟩

theorem exists_members : ∀ es : List (Scalar PyFloat × Value PyFloat), FaithfulEntries es →
    ∃ ms, plainMembers es = .ok ms
  | [], _ => ⟨[], rfl⟩
  | (key, v) :: es, h => by
    obtain ⟨⟨s, rfl, -⟩, hv, hes⟩ := h
    obtain ⟨d, hd⟩ := exists_document v hv
    obtain ⟨ms, hms⟩ := exists_members es hes
    exact ⟨_, plainMembers_cons.mpr ⟨encode s, d, ms, rfl, rfl, hd, hms⟩⟩

end

variable (space) in
/-- A dictionary is written, read back and equal to what is read exactly if it is faithful. -/
theorem dumps_loads_iff (d : PyDict) :
    (∃ text v, jsonDumps (.dict d.entries) = .ok text ∧ jsonLoads space text = some v ∧
      valueEq (.dict d.entries) v = true) ↔ Faithful (.dict d.entries) := by
  have hread : ∀ doc, plainDocument (.dict d.entries) = .ok doc → ∃ json,
      jsonLoads space (spaced doc) = some (ofJson json) ∧
        (valueEq (.dict d.entries) (ofJson json) = true ↔ Faithful (.dict d.entries)) := by
    intro doc hdoc
    have hmeaning : ∃ json, meaning (readLiteral space) doc = some json := exists_meaning _ hdoc
    obtain ⟨json, hjson⟩ := hmeaning
    exact ⟨json, congrArg (Option.map ofJson) (read_spaced hjson),
      value_eq_iff _ d.wellFormed hdoc hjson⟩
  constructor
  · rintro ⟨text, v, htext, hv, heq⟩
    obtain ⟨doc, hdoc, rfl⟩ := Fallible.map_eq_ok.mp htext
    obtain ⟨json, hload, hiff⟩ := hread doc hdoc
    obtain rfl := Option.some.inj (hload.symm.trans hv)
    exact hiff.mp heq
  · intro h
    obtain ⟨doc, hdoc⟩ := exists_document _ h
    obtain ⟨json, hload, hiff⟩ := hread doc hdoc
    exact ⟨_, _, congrArg (Except.map spaced) hdoc, hload, hiff.mpr h⟩

end

end ApiTemplate.Utils
