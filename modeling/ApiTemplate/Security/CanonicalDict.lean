import ApiTemplate.Fallible.Results
import ApiTemplate.Security.DictSignature
import Mathlib.Data.List.Nodup

/-!
# Dictionaries with one document

Dictionaries whose keys are strings have one JSON document exactly if they are equal up to the order
of their keys, at every depth, when tuples count as lists. `True`, `1` and `1.0` are told apart.
-/

namespace ApiTemplate.Security

open JsonDocument Utf16

variable {F : Type}

/-! ## Equality up to the order of keys -/

def Value.items : Value F → Option (List (Value F))
  | .list items => some items
  | .tuple items => some items
  | _ => none

mutual

/-- Equal up to the order of keys, tuples counting as lists. -/
def Value.Same : Value F → Value F → Prop
  | .scalar s, w => w = .scalar s
  | .list items, w => ∃ items', w.items = some items' ∧ SameItems items items'
  | .tuple items, w => ∃ items', w.items = some items' ∧ SameItems items items'
  | .dict entries, w =>
    ∃ entries' arranged, w = .dict entries' ∧ entries'.Perm arranged ∧ SameEntries entries arranged

def SameItems : List (Value F) → List (Value F) → Prop
  | [], ws => ws = []
  | v :: vs, ws => ∃ w ws', ws = w :: ws' ∧ v.Same w ∧ SameItems vs ws'

def SameEntries : List (Scalar F × Value F) → List (Scalar F × Value F) → Prop
  | [], es => es = []
  | (key, v) :: entries, es =>
    ∃ w es', es = (key, w) :: es' ∧ v.Same w ∧ SameEntries entries es'

end

/-- The strings hold no surrogates. -/
def Scalar.Plain (s : Scalar F) : Prop := ∀ text, s = .str text → NoSurrogates text

/-- The key is a string. -/
def Scalar.Named (s : Scalar F) : Prop := ∃ text, s = .str text

mutual

/-- All keys are strings, those of a dictionary are distinct, and no string holds surrogates. -/
def Value.Plain : Value F → Prop
  | .scalar s => s.Plain
  | .list items => PlainItems items
  | .tuple items => PlainItems items
  | .dict entries => (entries.map Prod.fst).Nodup ∧ PlainEntries entries

def PlainItems : List (Value F) → Prop
  | [] => True
  | v :: vs => v.Plain ∧ PlainItems vs

def PlainEntries : List (Scalar F × Value F) → Prop
  | [] => True
  | (key, v) :: entries => (key.Named ∧ key.Plain) ∧ v.Plain ∧ PlainEntries entries

end

theorem plainEntries_iff {entries : List (Scalar F × Value F)} :
    PlainEntries entries ↔ ∀ e ∈ entries, (e.1.Named ∧ e.1.Plain) ∧ e.2.Plain := by
  induction entries with
  | nil => simp [PlainEntries]
  | cons e entries ih =>
    obtain ⟨key, v⟩ := e
    simp [PlainEntries, ih, and_assoc]

/-! ## Scalars -/

variable (floats : Floats F)

theorem intToken_text {n : ℤ} {token : Token} (h : intToken n = .ok token) :
    Numerals.str n = some token.text := by
  unfold intToken at h
  split at h
  · next text htext =>
    obtain rfl := Except.ok.inj h
    exact htext
  · cases h

theorem intToken_inj {n m : ℤ} {token : Token} (hn : intToken n = .ok token)
    (hm : intToken m = .ok token) : n = m :=
  Numerals.str_inj (intToken_text hn) (intToken_text hm)

/-- An integer's text has no letters. -/
theorem intToken_chars {n : ℤ} {token : Token} (h : intToken n = .ok token) :
    ∀ c ∈ token.text, c = '-' ∨ 48 ≤ c.toNat ∧ c.toNat ≤ 57 :=
  Numerals.toNat_of_mem_str (intToken_text h)

theorem intToken_ne_null {n : ℤ} : intToken n ≠ .ok nullToken := by
  intro h
  have hc := intToken_chars h 'n' (by decide)
  revert hc
  decide

theorem intToken_ne_bool {n : ℤ} {b : Bool} : intToken n ≠ .ok (boolToken b) := by
  intro h
  have hc := intToken_chars h 'e' (by cases b <;> decide)
  revert hc
  decide

theorem intToken_ne_float {n : ℤ} {x : F} : intToken n ≠ .ok (floats.token x) := by
  intro h
  obtain ⟨c, hc, hdash, hdigit⟩ := floats.token_ne_int x
  exact (intToken_chars h c hc).elim hdash hdigit

theorem nullToken_ne_bool {b : Bool} : nullToken ≠ boolToken b := by
  intro h
  have htext := congrArg Token.text h
  cases b <;> exact absurd htext (by decide)

theorem boolToken_inj {b b' : Bool} (h : boolToken b = boolToken b') : b = b' := by
  have htext := congrArg Token.text h
  revert htext
  cases b <;> cases b' <;> decide

/-- A scalar with a token. -/
inductive HasToken : Scalar F → Token → Prop
  | none : HasToken .none nullToken
  | bool (b : Bool) : HasToken (.bool b) (boolToken b)
  | int (n : ℤ) (t : Token) (h : intToken n = .ok t) : HasToken (.int n) t
  | float (x : F) : HasToken (.float x) (floats.token x)

theorem literal_eq_inr {s : Scalar F} {text : Str} (h : literal floats s = .ok (.inr text)) :
    s = .str text := by
  cases s with
  | str text' => rw [Sum.inr.inj (Except.ok.inj h)]
  | int n => cases hn : intToken n <;> simp [literal, hn, Except.map] at h
  | none => simp [literal] at h
  | bool b => simp [literal] at h
  | float x => simp [literal] at h
  | other => simp [literal] at h

theorem hasToken_of_literal {s : Scalar F} {t : Token} (h : literal floats s = .ok (.inl t)) :
    HasToken floats s t := by
  cases s with
  | none =>
    obtain rfl := Sum.inl.inj (Except.ok.inj h)
    exact .none
  | bool b =>
    obtain rfl := Sum.inl.inj (Except.ok.inj h)
    exact .bool b
  | int n =>
    cases hn : intToken n with
    | error e => simp [literal, hn, Except.map] at h
    | ok t' =>
      simp only [literal, hn, Except.map, Except.ok.injEq, Sum.inl.injEq] at h
      exact .int n t (h ▸ hn)
  | float x =>
    obtain rfl := Sum.inl.inj (Except.ok.inj h)
    exact .float x
  | str text => simp [literal] at h
  | other => simp [literal] at h

theorem HasToken.inj {s s' : Scalar F} {t t' : Token} (h : HasToken floats s t)
    (h' : HasToken floats s' t') (ht : t = t') : s = s' := by
  cases h with
  | none =>
    cases h' with
    | none => rfl
    | bool b => exact absurd ht nullToken_ne_bool
    | int n _ hn => exact absurd (ht ▸ hn) intToken_ne_null
    | float x => exact absurd ht.symm (floats.token_ne_null x)
  | bool b =>
    cases h' with
    | none => exact absurd ht.symm nullToken_ne_bool
    | bool b' => rw [boolToken_inj ht]
    | int n _ hn => exact absurd (ht ▸ hn) intToken_ne_bool
    | float x => exact absurd ht.symm (floats.token_ne_bool x b)
  | int n _ hn =>
    cases h' with
    | none => exact absurd (ht ▸ hn) intToken_ne_null
    | bool b => exact absurd (ht ▸ hn) intToken_ne_bool
    | int m _ hm => rw [intToken_inj hn (ht ▸ hm)]
    | float x => exact absurd (ht ▸ hn) (intToken_ne_float floats)
  | float x =>
    cases h' with
    | none => exact absurd ht (floats.token_ne_null x)
    | bool b => exact absurd ht (floats.token_ne_bool x b)
    | int n _ hn => exact absurd (ht ▸ hn) (intToken_ne_float floats)
    | float y => rw [floats.token_inj x y ht]

theorem literal_inj {s s' : Scalar F} {l : Token ⊕ Str} (h : literal floats s = .ok l)
    (h' : literal floats s' = .ok l) : s = s' := by
  cases l with
  | inl t => exact (hasToken_of_literal floats h).inj floats (hasToken_of_literal floats h') rfl
  | inr text => rw [literal_eq_inr floats h, literal_eq_inr floats h']

theorem scalarDoc_eq_token {s : Scalar F} {t : Token} (h : scalarDoc floats s = .ok (.token t)) :
    literal floats s = .ok (.inl t) := by
  cases hl : literal floats s with
  | error e => simp [scalarDoc, hl, Except.map] at h
  | ok l =>
    cases l with
    | inl t' =>
      simp only [scalarDoc, hl, Except.map, Except.ok.injEq, Doc.token.injEq] at h
      rw [h]
    | inr text => simp [scalarDoc, hl, Except.map] at h

theorem scalarDoc_eq_str {s : Scalar F} {units : List CodeUnit}
    (h : scalarDoc floats s = .ok (.str units)) : ∃ text, s = .str text ∧ encode text = units := by
  cases hl : literal floats s with
  | error e => simp [scalarDoc, hl, Except.map] at h
  | ok l =>
    cases l with
    | inl t' => simp [scalarDoc, hl, Except.map] at h
    | inr text =>
      simp only [scalarDoc, hl, Except.map, Except.ok.injEq, Doc.str.injEq] at h
      exact ⟨text, literal_eq_inr floats hl, h⟩

theorem scalarDoc_shape {s : Scalar F} {d : Doc} (h : scalarDoc floats s = .ok d) :
    (∃ t, d = .token t) ∨ ∃ units, d = .str units := by
  cases hl : literal floats s with
  | error e => simp [scalarDoc, hl, Except.map] at h
  | ok l =>
    cases l with
    | inl t =>
      exact .inl ⟨t, (by simpa [scalarDoc, hl, Except.map] using h.symm)⟩
    | inr text =>
      exact .inr ⟨encode text, (by simpa [scalarDoc, hl, Except.map] using h.symm)⟩

/-- Plain scalars with one document are equal. -/
theorem scalarDoc_inj {s s' : Scalar F} (hs : s.Plain) (hs' : s'.Plain) {d : Doc}
    (h : scalarDoc floats s = .ok d) (h' : scalarDoc floats s' = .ok d) : s = s' := by
  obtain ⟨t, rfl⟩ | ⟨units, rfl⟩ := scalarDoc_shape floats h
  · exact literal_inj floats (scalarDoc_eq_token floats h) (scalarDoc_eq_token floats h')
  · obtain ⟨text, rfl, rfl⟩ := scalarDoc_eq_str floats h
    obtain ⟨text', rfl, hunits⟩ := scalarDoc_eq_str floats h'
    rw [encode_inj (hs text rfl) (hs' text' rfl) hunits.symm]

/-! ## Objects -/

section

variable {α : Type}

/-- Members whose keys are strings. -/
def ofNamed (named : List (Str × α)) : List (Scalar F × α) := named.map fun e => (.str e.1, e.2)

theorem strKeys_ofNamed (named : List (Str × α)) :
    strKeys (ofNamed named : List (Scalar F × α)) = some named := by
  induction named with
  | nil => rfl
  | cons e named ih =>
    show Option.map _ (strKeys (ofNamed named : List (Scalar F × α))) = _
    rw [ih]
    rfl

theorem exists_ofNamed {members : List (Scalar F × α)} (h : ∀ e ∈ members, e.1.Named) :
    ∃ named, members = ofNamed named := by
  induction members with
  | nil => exact ⟨[], rfl⟩
  | cons e members ih =>
    obtain ⟨key, a⟩ := e
    obtain ⟨text, rfl⟩ : key.Named := h (key, a) (by simp)
    obtain ⟨named, rfl⟩ := ih fun e he => h e (by simp [he])
    exact ⟨(text, a) :: named, rfl⟩

theorem ofNamed_perm {named named' : List (Str × α)}
    (h : (ofNamed named : List (Scalar F × α)).Perm (ofNamed named')) : named.Perm named' := by
  refine (List.map_perm_map_iff ?_).mp h
  rintro ⟨text, a⟩ ⟨text', a'⟩ heq
  simpa using heq

theorem eq_of_map_eq {β : Type} {f : α → β} {l l' : List α}
    (hf : ∀ a ∈ l, ∀ b ∈ l', f a = f b → a = b) (h : l.map f = l'.map f) : l = l' := by
  induction l generalizing l' with
  | nil => exact (List.map_eq_nil_iff.mp h.symm).symm
  | cons a l ih =>
    cases l' with
    | nil => cases h
    | cons b l' =>
      obtain ⟨hab, hrest⟩ := List.cons.inj h
      rw [hf a (by simp) b (by simp) hab,
        ih (fun a ha b hb => hf a (by simp [ha]) b (by simp [hb])) hrest]

/-- Sorting by distinct keys forgets the order. -/
theorem sorted_eq_of_perm {named named' : List (Str × α)} (hperm : named.Perm named')
    (hnodup : (named.map Prod.fst).Nodup) :
    StableSort.sorted Prod.fst named = StableSort.sorted Prod.fst named' := by
  have hsorted := (StableSort.sorted_perm Prod.fst named).trans
    (hperm.trans (StableSort.sorted_perm Prod.fst named').symm)
  refine hsorted.eq_of_pairwise (fun a b ha hb hab hba => ?_) (StableSort.sorted_pairwise _ _)
    (StableSort.sorted_pairwise _ _)
  have hmem : ∀ e ∈ StableSort.sorted Prod.fst named', e ∈ named := fun e he =>
    hperm.mem_iff.mpr ((StableSort.sorted_perm Prod.fst named').mem_iff.mp he)
  exact List.inj_on_of_nodup_map hnodup ((StableSort.sorted_perm _ _).mem_iff.mp ha) (hmem b hb)
    (le_antisymm hab hba)

end

/-- The object of string keys has its members in the order of the keys. -/
theorem objectOf_ofNamed (named : List (Str × Doc)) :
    objectOf floats (ofNamed named) = .ok (.object
      ((StableSort.sorted Prod.fst named).map fun e => (encode e.1, e.2))) := by
  have hkeys : ∀ l : List (Str × Doc),
      ((ofNamed l : List (Scalar F × Doc)).mapM fun item =>
        (keyUnits floats item.1).map fun key => (key, item.2)) =
      .ok (l.map fun e => (encode e.1, e.2)) := by
    intro l
    rw [ofNamed, List.mapM_map]
    exact Fallible.mapM_ok fun _ _ => rfl
  have hsort : sortItems floats (ofNamed named) =
      .ok (ofNamed (StableSort.sorted Prod.fst named)) := by
    rw [sortItems, strKeys_ofNamed]
    rfl
  rw [objectOf, hsort]
  show Except.bind (List.mapM _ (ofNamed (StableSort.sorted Prod.fst named))) _ = _
  rw [hkeys]
  rfl

/-- Objects of distinct plain keys are equal exactly if their members are, in any order. -/
theorem objectOf_eq_iff {named named' : List (Str × Doc)} (hnodup : (named.map Prod.fst).Nodup)
    (hplain : ∀ e ∈ named, NoSurrogates e.1) (hplain' : ∀ e ∈ named', NoSurrogates e.1) :
    objectOf floats (ofNamed named) = objectOf floats (ofNamed named') ↔ named.Perm named' := by
  rw [objectOf_ofNamed, objectOf_ofNamed, Except.ok.injEq, Doc.object.injEq]
  constructor
  · intro h
    have hsorted : StableSort.sorted Prod.fst named = StableSort.sorted Prod.fst named' := by
      refine eq_of_map_eq (fun a ha b hb hab => ?_) h
      have hmem := (StableSort.sorted_perm Prod.fst named).mem_iff.mp ha
      have hmem' := (StableSort.sorted_perm Prod.fst named').mem_iff.mp hb
      obtain ⟨hkey, hdoc⟩ := Prod.mk.inj hab
      exact Prod.ext (encode_inj (hplain a hmem) (hplain' b hmem') hkey) hdoc
    exact (StableSort.sorted_perm Prod.fst named).symm.trans
      (hsorted ▸ StableSort.sorted_perm Prod.fst named')
  · intro hperm
    rw [sorted_eq_of_perm hperm hnodup]

/-! ## Members -/

/-- The member of an object for an entry. -/
def MemberOf (e : Scalar F × Value F) (m : Scalar F × Doc) : Prop :=
  m.1 = e.1 ∧ e.2.document floats = .ok m.2

theorem documents_cons {v : Value F} {vs : List (Value F)} {ds : List Doc} :
    documents floats (v :: vs) = .ok ds ↔ ∃ d ds', ds = d :: ds' ∧
      v.document floats = .ok d ∧ documents floats vs = .ok ds' := by
  rw [documents, Fallible.bind_eq_ok]
  constructor
  · rintro ⟨d, hd, h⟩
    obtain ⟨ds', hds', h⟩ := Fallible.bind_eq_ok.mp h
    exact ⟨d, ds', (Except.ok.inj h).symm, hd, hds'⟩
  · rintro ⟨d, ds', rfl, hd, hds'⟩
    exact ⟨d, hd, Fallible.bind_eq_ok.mpr ⟨ds', hds', rfl⟩⟩

theorem memberDocs_cons {key : Scalar F} {v : Value F} {es : List (Scalar F × Value F)}
    {ms : List (Scalar F × Doc)} :
    memberDocs floats ((key, v) :: es) = .ok ms ↔ ∃ d ms', ms = (key, d) :: ms' ∧
      v.document floats = .ok d ∧ memberDocs floats es = .ok ms' := by
  rw [memberDocs, Fallible.bind_eq_ok]
  constructor
  · rintro ⟨d, hd, h⟩
    obtain ⟨ms', hms', h⟩ := Fallible.bind_eq_ok.mp h
    exact ⟨d, ms', (Except.ok.inj h).symm, hd, hms'⟩
  · rintro ⟨d, ms', rfl, hd, hms'⟩
    exact ⟨d, hd, Fallible.bind_eq_ok.mpr ⟨ms', hms', rfl⟩⟩

theorem memberDocs_iff {es : List (Scalar F × Value F)} {ms : List (Scalar F × Doc)} :
    memberDocs floats es = .ok ms ↔ List.Forall₂ (MemberOf floats) es ms := by
  induction es generalizing ms with
  | nil =>
    rw [List.forall₂_nil_left_iff, memberDocs, Except.ok.injEq]
    exact eq_comm
  | cons e es ih =>
    obtain ⟨key, v⟩ := e
    rw [memberDocs_cons, List.forall₂_cons_left_iff]
    constructor
    · rintro ⟨d, ms', rfl, hd, hms'⟩
      exact ⟨(key, d), ms', ⟨rfl, hd⟩, ih.mp hms', rfl⟩
    · rintro ⟨⟨key', d⟩, ms', ⟨rfl, hd⟩, hms', rfl⟩
      exact ⟨d, ms', rfl, hd, ih.mpr hms'⟩

/-- Rearranged members are those of rearranged entries. -/
theorem memberDocs_of_perm {es : List (Scalar F × Value F)} {ms ns : List (Scalar F × Doc)}
    (h : memberDocs floats es = .ok ms) (hperm : ms.Perm ns) :
    ∃ arranged, es.Perm arranged ∧ memberDocs floats arranged = .ok ns := by
  have hcomp : Relation.Comp (List.Forall₂ (MemberOf floats)) List.Perm es ns :=
    ⟨ms, (memberDocs_iff floats).mp h, hperm⟩
  rw [List.forall₂_comp_perm_eq_perm_comp_forall₂] at hcomp
  obtain ⟨arranged, hes, hns⟩ := hcomp
  exact ⟨arranged, hes, (memberDocs_iff floats).mpr hns⟩

theorem perm_of_memberDocs {es arranged : List (Scalar F × Value F)}
    {ns : List (Scalar F × Doc)} (hperm : es.Perm arranged)
    (h : memberDocs floats arranged = .ok ns) :
    ∃ ms, memberDocs floats es = .ok ms ∧ ms.Perm ns := by
  obtain ⟨ms, hms, hns⟩ := List.perm_comp_forall₂ hperm ((memberDocs_iff floats).mp h)
  exact ⟨ms, (memberDocs_iff floats).mpr hms, hns⟩

theorem keys_memberDocs {es : List (Scalar F × Value F)} {ms : List (Scalar F × Doc)}
    (h : memberDocs floats es = .ok ms) : ms.map Prod.fst = es.map Prod.fst := by
  have hforall := (memberDocs_iff floats).mp h
  induction hforall with
  | nil => rfl
  | cons hm hms ih => rw [List.map_cons, List.map_cons, hm.1, ih ((memberDocs_iff floats).mpr hms)]

/-- The members of a plain dictionary have string keys without surrogates, all distinct. -/
theorem named_of_plain {es : List (Scalar F × Value F)} {ms : List (Scalar F × Doc)}
    (hnodup : (es.map Prod.fst).Nodup) (hplain : PlainEntries es)
    (h : memberDocs floats es = .ok ms) :
    ∃ named, ms = ofNamed named ∧ (named.map Prod.fst).Nodup ∧
      ∀ e ∈ named, NoSurrogates e.1 := by
  have hkeys := keys_memberDocs floats h
  have hkey : ∀ m ∈ ms, m.1.Named ∧ m.1.Plain := by
    intro m hm
    have hmem : m.1 ∈ es.map Prod.fst := hkeys ▸ List.mem_map_of_mem hm
    obtain ⟨e, he, heq⟩ := List.mem_map.mp hmem
    exact heq ▸ (plainEntries_iff.mp hplain e he).1
  obtain ⟨named, rfl⟩ := exists_ofNamed fun m hm => (hkey m hm).1
  refine ⟨named, rfl, ?_, fun e he => ?_⟩
  · rw [← hkeys, ofNamed, List.map_map] at hnodup
    refine List.Nodup.of_map (fun text => (Scalar.str text : Scalar F)) ?_
    rwa [List.map_map]
  · exact (hkey (.str e.1, e.2) (List.mem_map_of_mem he)).2 e.1 rfl

/-- Plain dictionaries have one document exactly if they have the same members. -/
theorem objectOf_eq_iff_perm {es gs : List (Scalar F × Value F)} {ms ns : List (Scalar F × Doc)}
    (hes : (Value.dict es).Plain) (hgs : (Value.dict gs).Plain)
    (hms : memberDocs floats es = .ok ms) (hns : memberDocs floats gs = .ok ns) :
    objectOf floats ms = objectOf floats ns ↔ ms.Perm ns := by
  obtain ⟨named, rfl, hnodup, hplain⟩ := named_of_plain floats hes.1 hes.2 hms
  obtain ⟨named', rfl, -, hplain'⟩ := named_of_plain floats hgs.1 hgs.2 hns
  rw [objectOf_eq_iff floats hnodup hplain hplain']
  exact ⟨fun h => h.map _, ofNamed_perm⟩

theorem document_dict {es : List (Scalar F × Value F)} {d : Doc}
    (h : (Value.dict es).document floats = .ok d) :
    ∃ ms, memberDocs floats es = .ok ms ∧ objectOf floats ms = .ok d := by
  rw [Value.document] at h
  exact Fallible.bind_eq_ok.mp h

/-! ## Documents of plain values -/

theorem document_items {v : Value F} {items : List (Value F)} (h : v.items = some items) :
    v.document floats = (documents floats items).map .array := by
  cases v with
  | list _ => rw [Value.document, Option.some.inj h]
  | tuple _ => rw [Value.document, Option.some.inj h]
  | scalar _ => cases h
  | dict _ => cases h

theorem plain_items {v : Value F} {items : List (Value F)} (h : v.items = some items)
    (hv : v.Plain) : PlainItems items := by
  cases v with
  | list _ => exact Option.some.inj h ▸ hv
  | tuple _ => exact Option.some.inj h ▸ hv
  | scalar _ => cases h
  | dict _ => cases h

theorem object_of_dict {es : List (Scalar F × Value F)} {d : Doc}
    (hes : (Value.dict es).Plain) (h : (Value.dict es).document floats = .ok d) :
    ∃ members, d = .object members := by
  obtain ⟨ms, hms, hd⟩ := document_dict floats h
  obtain ⟨named, rfl, -, -⟩ := named_of_plain floats hes.1 hes.2 hms
  rw [objectOf_ofNamed] at hd
  exact ⟨_, (Except.ok.inj hd).symm⟩

/-- The kind of a plain value shows in its document. -/
theorem kind_of_document {v : Value F} {d : Doc} (hv : v.Plain)
    (h : v.document floats = .ok d) :
    (∃ s, v = .scalar s ∧ scalarDoc floats s = .ok d ∧ ∀ ds, d ≠ .array ds) ∨
    (∃ items ds, v.items = some items ∧ documents floats items = .ok ds ∧ d = .array ds) ∨
    ∃ es members, v = .dict es ∧ d = .object members := by
  cases v with
  | scalar s =>
    rw [Value.document] at h
    refine .inl ⟨s, rfl, h, ?_⟩
    rintro ds rfl
    obtain ⟨t, ht⟩ | ⟨units, hunits⟩ := scalarDoc_shape floats h
    · cases ht
    · cases hunits
  | list items =>
    rw [Value.document, Fallible.map_eq_ok] at h
    obtain ⟨ds, hds, rfl⟩ := h
    exact .inr (.inl ⟨items, ds, rfl, hds, rfl⟩)
  | tuple items =>
    rw [Value.document, Fallible.map_eq_ok] at h
    obtain ⟨ds, hds, rfl⟩ := h
    exact .inr (.inl ⟨items, ds, rfl, hds, rfl⟩)
  | dict es =>
    obtain ⟨members, rfl⟩ := object_of_dict floats hv h
    exact .inr (.inr ⟨es, members, rfl, rfl⟩)

/-- The document of a plain value is an array only for a list or a tuple. -/
theorem items_of_array {v : Value F} {ds : List Doc} (hv : v.Plain)
    (h : v.document floats = .ok (.array ds)) :
    ∃ items, v.items = some items ∧ PlainItems items ∧ documents floats items = .ok ds := by
  obtain ⟨_, -, -, hne⟩ | ⟨items, ds', hitems, hds', hdoc⟩ | ⟨_, _, -, hdoc⟩ :=
    kind_of_document floats hv h
  · exact absurd rfl (hne ds)
  · obtain rfl := Doc.array.inj hdoc
    exact ⟨items, hitems, plain_items hitems hv, hds'⟩
  · cases hdoc

theorem scalarDoc_ne_object {s : Scalar F} {members : List (List CodeUnit × Doc)} :
    scalarDoc floats s ≠ .ok (.object members) := by
  intro h
  obtain ⟨t, ht⟩ | ⟨units, hunits⟩ := scalarDoc_shape floats h
  · cases ht
  · cases hunits

mutual

/-- Plain values with one document are the same up to the order of keys. -/
theorem same_of_document : ∀ (v w : Value F) {d : Doc}, v.Plain → w.Plain →
    v.document floats = .ok d → w.document floats = .ok d → v.Same w
  | .scalar s, w, d, hv, hw, h, h' => by
    obtain ⟨s', rfl, hs', -⟩ | ⟨items, ds, -, -, rfl⟩ | ⟨es, members, -, rfl⟩ :=
      kind_of_document floats hw h'
    · rw [Value.Same, scalarDoc_inj floats hv hw h hs']
    · obtain ⟨t, ht⟩ | ⟨units, hunits⟩ := scalarDoc_shape floats h
      · cases ht
      · cases hunits
    · exact absurd h (scalarDoc_ne_object floats)
  | .list items, w, d, hv, hw, h, h' => by
    rw [Value.document, Fallible.map_eq_ok] at h
    obtain ⟨ds, hds, rfl⟩ := h
    obtain ⟨items', hitems, hplain, hds'⟩ := items_of_array floats hw h'
    exact ⟨items', hitems, sameItems_of_documents items items' hv hplain hds hds'⟩
  | .tuple items, w, d, hv, hw, h, h' => by
    rw [Value.document, Fallible.map_eq_ok] at h
    obtain ⟨ds, hds, rfl⟩ := h
    obtain ⟨items', hitems, hplain, hds'⟩ := items_of_array floats hw h'
    exact ⟨items', hitems, sameItems_of_documents items items' hv hplain hds hds'⟩
  | .dict es, w, d, hv, hw, h, h' => by
    obtain ⟨members, rfl⟩ := object_of_dict floats hv h
    obtain ⟨_, rfl, hs, -⟩ | ⟨_, _, -, -, hdoc⟩ | ⟨gs, _, rfl, -⟩ := kind_of_document floats hw h'
    · exact absurd hs (scalarDoc_ne_object floats)
    · cases hdoc
    · obtain ⟨ms, hms, hd⟩ := document_dict floats h
      obtain ⟨ns, hns, hd'⟩ := document_dict floats h'
      have hperm := (objectOf_eq_iff_perm floats hv hw hms hns).mp (hd.trans hd'.symm)
      obtain ⟨arranged, hgs, harranged⟩ := memberDocs_of_perm floats hns hperm.symm
      have hplain : PlainEntries arranged := plainEntries_iff.mpr fun e he =>
        plainEntries_iff.mp hw.2 e (hgs.mem_iff.mpr he)
      exact ⟨gs, arranged, rfl, hgs,
        sameEntries_of_memberDocs es arranged hv.2 hplain hms harranged⟩

theorem sameItems_of_documents : ∀ (vs ws : List (Value F)) {ds : List Doc}, PlainItems vs →
    PlainItems ws → documents floats vs = .ok ds → documents floats ws = .ok ds → SameItems vs ws
  | [], ws, ds, _, _, h, h' => by
    obtain rfl : [] = ds := Except.ok.inj h
    cases ws with
    | nil => rfl
    | cons w ws =>
      obtain ⟨_, _, hds, -⟩ := (documents_cons floats).mp h'
      cases hds
  | v :: vs, ws, ds, hvs, hws, h, h' => by
    obtain ⟨d, ds, rfl, hd, hds⟩ := (documents_cons floats).mp h
    cases ws with
    | nil => cases h'
    | cons w ws =>
      obtain ⟨d', ds', hcons, hd', hds'⟩ := (documents_cons floats).mp h'
      obtain ⟨rfl, rfl⟩ := List.cons.inj hcons
      exact ⟨w, ws, rfl, same_of_document v w hvs.1 hws.1 hd hd',
        sameItems_of_documents vs ws hvs.2 hws.2 hds hds'⟩

theorem sameEntries_of_memberDocs : ∀ (es fs : List (Scalar F × Value F))
    {ms : List (Scalar F × Doc)}, PlainEntries es → PlainEntries fs →
    memberDocs floats es = .ok ms → memberDocs floats fs = .ok ms → SameEntries es fs
  | [], fs, ms, _, _, h, h' => by
    obtain rfl : [] = ms := Except.ok.inj h
    cases fs with
    | nil => rfl
    | cons f fs =>
      obtain ⟨_, _, hms, -⟩ := (memberDocs_cons floats).mp h'
      cases hms
  | (key, v) :: es, fs, ms, hes, hfs, h, h' => by
    obtain ⟨d, ms, rfl, hd, hms⟩ := (memberDocs_cons floats).mp h
    cases fs with
    | nil => cases h'
    | cons f fs =>
      obtain ⟨key', w⟩ := f
      obtain ⟨d', ms', hcons, hd', hms'⟩ := (memberDocs_cons floats).mp h'
      obtain ⟨hmember, rfl⟩ := List.cons.inj hcons
      obtain ⟨rfl, rfl⟩ := Prod.mk.inj hmember
      exact ⟨w, fs, rfl, same_of_document v w hes.2.1 hfs.2.1 hd hd',
        sameEntries_of_memberDocs es fs hes.2.2 hfs.2.2 hms hms'⟩

end

mutual

/-- The order of keys does not show in the document. -/
theorem document_of_same : ∀ (v w : Value F) {d : Doc}, v.Plain → w.Plain → v.Same w →
    v.document floats = .ok d → w.document floats = .ok d
  | .scalar s, w, d, _, _, hsame, h => by
    rw [Value.Same] at hsame
    rwa [hsame]
  | .list items, w, d, hv, hw, hsame, h => by
    obtain ⟨items', hitems, hsame⟩ := hsame
    rw [Value.document, Fallible.map_eq_ok] at h
    obtain ⟨ds, hds, rfl⟩ := h
    rw [document_items floats hitems,
      documents_of_same items items' hv (plain_items hitems hw) hsame hds]
    rfl
  | .tuple items, w, d, hv, hw, hsame, h => by
    obtain ⟨items', hitems, hsame⟩ := hsame
    rw [Value.document, Fallible.map_eq_ok] at h
    obtain ⟨ds, hds, rfl⟩ := h
    rw [document_items floats hitems,
      documents_of_same items items' hv (plain_items hitems hw) hsame hds]
    rfl
  | .dict es, w, d, hv, hw, hsame, h => by
    obtain ⟨gs, arranged, rfl, hgs, hsame⟩ := hsame
    obtain ⟨ms, hms, hd⟩ := document_dict floats h
    have hplain : PlainEntries arranged := plainEntries_iff.mpr fun e he =>
      plainEntries_iff.mp hw.2 e (hgs.mem_iff.mpr he)
    have harranged := memberDocs_of_same es arranged hv.2 hplain hsame hms
    obtain ⟨ns, hns, hperm⟩ := perm_of_memberDocs floats hgs harranged
    rw [Value.document, hns]
    exact ((objectOf_eq_iff_perm floats hw hv hns hms).mpr hperm).trans hd

theorem documents_of_same : ∀ (vs ws : List (Value F)) {ds : List Doc}, PlainItems vs →
    PlainItems ws → SameItems vs ws → documents floats vs = .ok ds → documents floats ws = .ok ds
  | [], ws, ds, _, _, hsame, h => by
    rw [SameItems] at hsame
    rwa [hsame]
  | v :: vs, ws, ds, hvs, hws, hsame, h => by
    obtain ⟨w, ws', rfl, hw, hsame⟩ := hsame
    obtain ⟨d, ds, rfl, hd, hds⟩ := (documents_cons floats).mp h
    exact (documents_cons floats).mpr ⟨d, ds, rfl, document_of_same v w hvs.1 hws.1 hw hd,
      documents_of_same vs ws' hvs.2 hws.2 hsame hds⟩

theorem memberDocs_of_same : ∀ (es fs : List (Scalar F × Value F)) {ms : List (Scalar F × Doc)},
    PlainEntries es → PlainEntries fs → SameEntries es fs →
    memberDocs floats es = .ok ms → memberDocs floats fs = .ok ms
  | [], fs, ms, _, _, hsame, h => by
    rw [SameEntries] at hsame
    rwa [hsame]
  | (key, v) :: es, fs, ms, hes, hfs, hsame, h => by
    obtain ⟨w, fs', rfl, hw, hsame⟩ := hsame
    obtain ⟨d, ms, rfl, hd, hms⟩ := (memberDocs_cons floats).mp h
    exact (memberDocs_cons floats).mpr ⟨d, ms, rfl,
      document_of_same v w hes.2.1 hfs.2.1 hw hd,
      memberDocs_of_same es fs' hes.2.2 hfs.2.2 hsame hms⟩

end

/-! ## What a signature binds -/

variable {D : Type} [DecidableEq D]

/-- A signature verifies exactly for the dictionaries with the document of the one that was signed;
where all keys are strings these are the ones equal to it up to the order of keys. -/
theorem verifyDict_iff (hmac : ByteArray → ByteArray → D) (floats : Floats F)
    (service : SignatureService) (key : Option ByteArray) (d₁ d₂ : Dict F) (signature : D)
    (hinj : ∀ key, Function.Injective (hmac key))
    (hsign₁ : service.signDict hmac floats d₁ key = .ok signature)
    (hsign₂ : ∃ signature', service.signDict hmac floats d₂ key = .ok signature') :
    (service.verifyDict hmac floats d₂ signature key = .ok true ↔
      (Value.dict d₁).document floats = (Value.dict d₂).document floats) ∧
    ((Value.dict d₁).Plain → (Value.dict d₂).Plain →
      (service.verifyDict hmac floats d₂ signature key = .ok true ↔
        (Value.dict d₁).Same (.dict d₂))) := by
  obtain ⟨signature', hsign₂⟩ := hsign₂
  obtain ⟨b₁, hb₁, -⟩ := Fallible.map_eq_ok.mp hsign₁
  obtain ⟨b₂, hb₂, -⟩ := Fallible.map_eq_ok.mp hsign₂
  obtain ⟨doc₁, h₁⟩ := document_of_dumpDict floats hb₁
  obtain ⟨doc₂, h₂⟩ := document_of_dumpDict floats hb₂
  have hverify := verifyDict_iff_document floats service hinj hsign₁ h₁ h₂
  refine ⟨hverify.trans (by rw [h₁, h₂, Except.ok.injEq]), fun hplain₁ hplain₂ => ?_⟩
  rw [hverify]
  constructor
  · rintro rfl
    exact same_of_document floats _ _ hplain₁ hplain₂ h₁ h₂
  · intro hsame
    exact Except.ok.inj ((document_of_same floats _ _ hplain₁ hplain₂ hsame h₁).symm.trans h₂)

/-- The only float is `1.0`. -/
def floatOne : Floats Unit where
  token _ := ⟨"1.0".toList, by decide, List.all_eq_true.mp rfl⟩
  less
    | .inl n, .inl m => n < m
    | .inl n, .inr () => n < 1
    | .inr (), .inl m => 1 < m
    | .inr (), .inr () => false
  token_inj _ _ _ := rfl
  token_ne_null _ h := absurd (congrArg Token.text h) (by decide)
  token_ne_bool _ b h := by
    have htext := congrArg Token.text h
    cases b <;> exact absurd htext (by decide)
  token_ne_int _ := ⟨'.', by decide, by decide⟩

/-- Tags that show the key and the signed bytes. -/
def pairTag (key data : ByteArray) : List UInt8 × List UInt8 := (key.data.toList, data.data.toList)

theorem pairTag_injective (key : ByteArray) : Function.Injective (pairTag key) :=
  fun _ _ h => ByteArray.ext (Array.toList_inj.mp (Prod.mk.inj h).2)

def service : SignatureService := ⟨⟨#[7]⟩⟩

/-- The texts `a`, `b` and `1`. -/
def textA : Str := [⟨97, by decide⟩]

def textB : Str := [⟨98, by decide⟩]

def textOne : Str := [⟨49, by decide⟩]

def entryA : Scalar Unit × Value Unit := (.str textA, .list [.scalar (.int 1)])

def entryB : Scalar Unit × Value Unit := (.str textB, .scalar (.float ()))

/-- The document of the two entries. -/
def docAB : Doc :=
  .object [(ascii ['a'], .array [.token ⟨"1".toList, by decide, List.all_eq_true.mp rfl⟩]),
    (ascii ['b'], .token ⟨"1.0".toList, by decide, List.all_eq_true.mp rfl⟩)]

theorem document_AB : (Value.dict [entryA, entryB]).document floatOne = .ok docAB := by
  show objectOf floatOne (ofNamed [(textA, .array [.token ⟨"1".toList, _, _⟩]),
    (textB, .token ⟨"1.0".toList, _, _⟩)]) = _
  rw [objectOf_ofNamed, StableSort.sorted, List.mergeSort_of_pairwise (by decide)]
  rfl

theorem plain_AB : (Value.dict [entryA, entryB]).Plain := by
  refine ⟨by decide, ⟨⟨⟨_, rfl⟩, ?_⟩, ⟨?_, trivial⟩, ⟨⟨_, rfl⟩, ?_⟩, ?_, trivial⟩⟩
  all_goals rintro _ ⟨⟩
  · simp [NoSurrogates, Surrogate, textA]
  · simp [NoSurrogates, Surrogate, textB]

theorem plain_BA : (Value.dict [entryB, entryA]).Plain := by
  obtain ⟨-, hA, hvA, hB, hvB, -⟩ := plain_AB
  exact ⟨by decide, hB, hvB, hA, hvA, trivial⟩

theorem document_BA : (Value.dict [entryB, entryA]).document floatOne = .ok docAB := by
  refine document_of_same floatOne _ _ plain_AB plain_BA ?_ document_AB
  exact ⟨[entryB, entryA], [entryA, entryB], rfl, List.Perm.swap .., _, _, rfl,
    ⟨_, rfl, _, _, rfl, rfl, rfl⟩, _, _, rfl, rfl, rfl⟩

theorem verifyDict_iff_reordered :
    (service.verifyDict pairTag floatOne [entryB, entryA]
        (pairTag (service.key none) (String.ofList docAB.text).toByteArray) none = .ok true ↔
      (Value.dict [entryA, entryB]).document floatOne =
        (Value.dict [entryB, entryA]).document floatOne) ∧
    ((Value.dict [entryA, entryB]).Plain → (Value.dict [entryB, entryA]).Plain →
      (service.verifyDict pairTag floatOne [entryB, entryA]
          (pairTag (service.key none) (String.ofList docAB.text).toByteArray) none = .ok true ↔
        (Value.dict [entryA, entryB]).Same (.dict [entryB, entryA]))) :=
  verifyDict_iff pairTag floatOne service none [entryA, entryB] [entryB, entryA] _
    pairTag_injective (signDict_of_document pairTag floatOne service document_AB none)
    ⟨_, signDict_of_document pairTag floatOne service document_BA none⟩

/-- The document of `\x7b1: "a"\x7d` and of `\x7b"1": "a"\x7d`. -/
def docOne : Doc := .object [(ascii ['1'], .str (ascii ['a']))]

theorem document_intKey :
    (Value.dict [(.int 1, .scalar (.str textA))]).document floatOne = .ok docOne := rfl

theorem document_strKey :
    (Value.dict [(.str textOne, .scalar (.str textA))]).document floatOne = .ok docOne := by
  show objectOf floatOne (ofNamed [(textOne, .str (ascii ['a']))]) = _
  rw [objectOf_ofNamed, StableSort.sorted, List.mergeSort_singleton]
  rfl

/-- The signature of `\x7b1: "a"\x7d` verifies for `\x7b"1": "a"\x7d`. -/
theorem not_bound :
    service.signDict pairTag floatOne [(.int 1, .scalar (.str textA))] none =
      .ok (pairTag (service.key none) (String.ofList docOne.text).toByteArray) ∧
    service.verifyDict pairTag floatOne [(.str textOne, .scalar (.str textA))]
        (pairTag (service.key none) (String.ofList docOne.text).toByteArray) none = .ok true ∧
    ¬(Value.dict [((.int 1 : Scalar Unit), .scalar (.str textA))]).Same
      (.dict [(.str textOne, .scalar (.str textA))]) := by
  have hsign := signDict_of_document pairTag floatOne service document_intKey none
  refine ⟨hsign, ?_, ?_⟩
  · exact (verifyDict_iff_document floatOne service pairTag_injective hsign document_intKey
      document_strKey).mpr rfl
  · rintro ⟨gs, arranged, hdict, hperm, w, es, harranged, -⟩
    obtain rfl := Value.dict.inj hdict
    rw [List.perm_singleton.mp hperm.symm] at harranged
    cases harranged

end ApiTemplate.Security
