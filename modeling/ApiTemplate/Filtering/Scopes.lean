import ApiTemplate.Filtering.Compiler
import Mathlib.Data.List.DropRight

/-!
# Scoped filters

The check of a compiler class when it is created, and the dispatch of the filters whose meaning
depends on the scope. The name of a method joins the scope, the field and the lookup; the dispatch
is exact if and only if no method is found under the joined names of two scopes and fields.
-/

namespace ApiTemplate.Filtering

namespace SqlAlchemyFiltersCompiler

variable (self : SqlAlchemyFiltersCompiler)

/-! ## The check of the class -/

/-- `name.startswith(start)` -/
def startsWith (name start : String) : Bool := start.toList.isPrefixOf name.toList

/-- `name.removeprefix("compile_")` of the attributes that start so. -/
def declared : List String :=
  (("compile_search__eq" :: self.methods).filter fun name => startsWith name "compile_").map
    fun name => String.ofList (name.toList.drop "compile_".length)

/-- `sorted(names)` -/
def sorted (names : List String) : List String := names.mergeSort (· ≤ ·)

/-- The handlers that are missing. -/
def missing : List String :=
  (sorted self.scopedFields).flatMap fun field =>
    ((sorted self.scopes).filter fun scope =>
      !self.declared.any fun name => startsWith name (scope ++ "__" ++ field ++ "__")).map
        fun scope => "compile_" ++ scope ++ "__" ++ field ++ "__<lookup>"

/-- `__init_subclass__`, with the text of its `TypeError`. -/
def initSubclass : Except String Unit :=
  if self.scopedFields = [] then .ok ()
  else if self.scopes = [] then
    .error (self.name ++ " declares scoped_fields=" ++ reprList self.scopedFields ++
      " but no `scopes`.")
  else if self.missing = [] then .ok ()
  else .error (self.name ++
    " declares scoped fields without a handler for every scope. Missing: " ++
    ", ".intercalate self.missing)

/-- A class with scoped fields is accepted if each of them has a method in every scope. -/
theorem initSubclass_eq_ok_iff : self.initSubclass = .ok () ↔ self.scopedFields = [] ∨
    self.scopes ≠ [] ∧ ∀ field ∈ self.scopedFields, ∀ scope ∈ self.scopes,
      (self.declared.any fun name => startsWith name (scope ++ "__" ++ field ++ "__")) = true := by
  have hmissing : self.missing = [] ↔ ∀ field ∈ self.scopedFields, ∀ scope ∈ self.scopes,
      (self.declared.any fun name => startsWith name (scope ++ "__" ++ field ++ "__")) = true := by
    simp only [missing, sorted, List.flatMap_eq_nil_iff, List.map_eq_nil_iff,
      List.filter_eq_nil_iff, List.mem_mergeSort, Bool.not_eq_true', Bool.not_eq_false]
  unfold initSubclass
  rw [← hmissing]
  by_cases hfields : self.scopedFields = []
  · simp [hfields]
  · by_cases hscopes : self.scopes = []
    · simp [hfields, hscopes]
    · by_cases hnone : self.missing = [] <;> simp [hfields, hscopes, hnone]

/-! ## The dispatch -/

/-- `compile_<scope>__<field>__<lookup>` -/
def scopedName (scope : String) (container : FilterContainer) : String :=
  "compile_" ++ scope ++ "__" ++ suffix container

/-- The dispatch of scoped filters is exact: it raises, or finds the method of the scope, the field
and the lookup, and no two of these have a method in common; an unknown scope is refused. -/
structure DispatchExact (compiler : SqlAlchemyFiltersCompiler) : Prop where
  own : ∀ container scope found, container.field ∈ compiler.scopedFields →
    compiler.resolve container scope = .ok found →
      ∃ s, scope = some s ∧ found = some (scopedName s container) ∧
        found ≠ some ("compile_" ++ suffix container)
  separate : ∀ container container' s s' name, s ∈ compiler.scopes → s' ∈ compiler.scopes →
    container.field ∈ compiler.scopedFields → container'.field ∈ compiler.scopedFields →
    compiler.resolve container (some s) = .ok (some name) →
    compiler.resolve container' (some s') = .ok (some name) →
      s = s' ∧ container.field = container'.field ∧ container.lookup = container'.lookup
  refused : ∀ s containers, s ∉ compiler.scopes →
    ∃ message, compiler.compile (some s) containers = .error (.runtimeError message)

/-- Two scopes and fields with one joined name have no method of that name. -/
def Unambiguous : Prop :=
  ∀ s ∈ self.scopes, ∀ s' ∈ self.scopes, ∀ f ∈ self.scopedFields, ∀ f' ∈ self.scopedFields,
    s ++ "__" ++ f = s' ++ "__" ++ f' → (s, f) ≠ (s', f') →
      ∀ lookup : FilterLookupEnum,
        self.method ("compile_" ++ s ++ "__" ++ f ++ "__" ++ lookup.value) = none

/-! ## Joined names -/

theorem not_mem_lookup (lookup : FilterLookupEnum) : '_' ∉ lookup.value.toList := by
  cases lookup <;> decide

theorem lookup_value_injective {l l' : FilterLookupEnum} (h : l.value = l'.value) : l = l' := by
  cases l <;> cases l' <;> first | rfl | (revert h; decide)

theorem rtakeWhile_lookup (front : List Char) (lookup : FilterLookupEnum) :
    (front ++ '_' :: lookup.value.toList).rtakeWhile (· ≠ '_') = lookup.value.toList := by
  have hall : ∀ c ∈ lookup.value.toList.reverse, decide (c ≠ '_') = true := fun c hc =>
    decide_eq_true (ne_of_mem_of_not_mem (List.mem_reverse.mp hc) (not_mem_lookup lookup))
  rw [List.rtakeWhile, List.reverse_append, List.reverse_cons, List.append_assoc,
    List.takeWhile_append_of_pos hall]
  simp

/-- The lookup is the part of a name behind its last `__`. -/
theorem join_lookup_inj {a b : String} {l l' : FilterLookupEnum}
    (h : a ++ "__" ++ l.value = b ++ "__" ++ l'.value) : a = b ∧ l = l' := by
  have hlist : ∀ (x : String) (k : FilterLookupEnum),
      (x ++ "__" ++ k.value).toList = (x.toList ++ ['_']) ++ '_' :: k.value.toList := by
    intro x k
    simp only [String.toList_append, List.append_assoc]
    rfl
  have hvalue : l.value = l'.value := by
    have htoList := congrArg String.toList h
    rw [hlist, hlist] at htoList
    have htake := congrArg (List.rtakeWhile (· ≠ '_')) htoList
    rw [rtakeWhile_lookup, rtakeWhile_lookup] at htake
    exact String.toList_inj.mp htake
  have hfront : a ++ "__" = b ++ "__" := by
    rw [hvalue] at h
    exact (String.append_left_inj _).mp h
  exact ⟨(String.append_left_inj _).mp hfront, lookup_value_injective hvalue⟩

theorem scopedName_eq (s : String) (container : FilterContainer) : scopedName s container =
    "compile_" ++ (s ++ "__" ++ container.field ++ "__" ++ container.lookup.value) := by
  simp only [scopedName, suffix, String.append_assoc]

theorem scopedName_inj {s s' : String} {container container' : FilterContainer}
    (h : scopedName s container = scopedName s' container') :
    s ++ "__" ++ container.field = s' ++ "__" ++ container'.field ∧
      container.lookup = container'.lookup := by
  rw [scopedName_eq, scopedName_eq] at h
  exact join_lookup_inj ((String.append_right_inj _).mp h)

/-- A scoped name is longer than the name of the shared method. -/
theorem scopedName_ne_shared (s : String) (container : FilterContainer) :
    scopedName s container ≠ "compile_" ++ suffix container := by
  intro h
  have hlength := congrArg String.length h
  have hsep : "__".length = 2 := rfl
  simp only [scopedName, String.length_append, hsep] at hlength
  omega

/-! ## Resolution -/

variable {self}

theorem method_eq_some {name found : String} (h : self.method name = some found) :
    found = name := by
  unfold method at h
  split at h
  · exact (Option.some.inj h).symm
  · cases h

theorem resolve_scoped_none {container : FilterContainer}
    (hfield : container.field ∈ self.scopedFields) :
    ∃ message, self.resolve container none = .error (.runtimeError message) := by
  simp only [resolve, Option.bind_none, hfield, if_true]
  exact ⟨_, rfl⟩

/-- What the dispatch of a scoped filter returns is the method of its joined name. -/
theorem resolve_scoped_some_iff {container : FilterContainer} {s : String} {found : Option String}
    (hfield : container.field ∈ self.scopedFields) :
    self.resolve container (some s) = .ok found ↔
      found = some (scopedName s container) ∧ self.method (scopedName s container) ≠ none := by
  have hbind : (some s).bind (fun s => self.method ("compile_" ++ s ++ "__" ++ suffix container)) =
      self.method (scopedName s container) := rfl
  unfold resolve
  rw [hbind]
  cases hmethod : self.method (scopedName s container) with
  | none => simp [hfield]
  | some name =>
    obtain rfl := method_eq_some hmethod
    simp [eq_comm]

theorem compile_unknown_scope {s : String} (containers : List FilterContainer)
    (hs : s ∉ self.scopes) :
    ∃ message, self.compile (some s) containers = .error (.runtimeError message) := by
  unfold compile
  rw [if_pos (by simpa using hs)]
  exact ⟨_, rfl⟩

theorem resolve_own {container : FilterContainer} {scope found : Option String}
    (hfield : container.field ∈ self.scopedFields)
    (h : self.resolve container scope = .ok found) :
    ∃ s, scope = some s ∧ found = some (scopedName s container) ∧
      found ≠ some ("compile_" ++ suffix container) := by
  cases scope with
  | none =>
    obtain ⟨message, herror⟩ := resolve_scoped_none hfield
    rw [herror] at h
    cases h
  | some s =>
    obtain ⟨rfl, -⟩ := (resolve_scoped_some_iff hfield).mp h
    exact ⟨s, rfl, rfl, fun heq => scopedName_ne_shared s container (Option.some.inj heq)⟩

variable (self) in
/-- **The dispatch of scoped filters is exact if and only if the joined names are unambiguous.** -/
theorem dispatchExact_iff : self.DispatchExact ↔ self.Unambiguous := by
  constructor
  · intro h s hs s' hs' f hf f' hf' hjoin hne lookup
    by_contra hfound
    have hname : ∀ t g, "compile_" ++ t ++ "__" ++ g ++ "__" ++ lookup.value =
        scopedName t ⟨.none, lookup, g⟩ := fun t g => by
      simp only [scopedName, suffix, String.append_assoc]
    have hsame : scopedName s ⟨.none, lookup, f⟩ = scopedName s' ⟨.none, lookup, f'⟩ := by
      rw [scopedName_eq, scopedName_eq]
      exact congrArg (fun name => "compile_" ++ (name ++ "__" ++ lookup.value)) hjoin
    rw [hname] at hfound
    have hfirst : self.resolve ⟨.none, lookup, f⟩ (some s) =
        .ok (some (scopedName s ⟨.none, lookup, f⟩)) :=
      (resolve_scoped_some_iff hf).mpr ⟨rfl, hfound⟩
    have hsecond : self.resolve ⟨.none, lookup, f'⟩ (some s') =
        .ok (some (scopedName s' ⟨.none, lookup, f'⟩)) :=
      (resolve_scoped_some_iff hf').mpr ⟨rfl, hsame ▸ hfound⟩
    rw [← hsame] at hsecond
    obtain ⟨rfl, hfield, -⟩ := h.separate _ _ s s' _ hs hs' hf hf' hfirst hsecond
    exact hne (congrArg (Prod.mk s) hfield)
  · intro h
    refine ⟨fun _ _ _ => resolve_own, ?_, fun _ containers => compile_unknown_scope containers⟩
    intro container container' s s' name hs hs' hf hf' hfirst hsecond
    obtain ⟨hname, hfound⟩ := (resolve_scoped_some_iff hf).mp hfirst
    obtain ⟨hname', -⟩ := (resolve_scoped_some_iff hf').mp hsecond
    obtain ⟨hjoin, hlookup⟩ := scopedName_inj (Option.some.inj (hname.symm.trans hname'))
    by_contra hdiffer
    have hne : (s, container.field) ≠ (s', container'.field) := by
      intro heq
      obtain ⟨hscope, hfield⟩ := Prod.mk.inj heq
      exact hdiffer ⟨hscope, hfield, hlookup⟩
    have hnone := h s hs s' hs' container.field hf container'.field hf' hjoin hne container.lookup
    refine hfound ?_
    rw [scopedName_eq]
    simpa only [String.append_assoc] using hnone

/-- A class with the scopes `a` and `a__b`, whose fields `b__c` and `c` depend on the scope. -/
def ambiguousCompiler : SqlAlchemyFiltersCompiler where
  name := "DocFiltersCompiler"
  model := "Doc"
  columns := ["b__c", "c"]
  methods := ["compile_a__b__c__eq", "compile_a__c__eq", "compile_a__b__b__c__eq"]
  scopes := ["a", "a__b"]
  scopedFields := ["b__c", "c"]

/-- The class is accepted, and one method serves two scopes and fields. -/
theorem ambiguousCompiler_not_exact :
    ambiguousCompiler.initSubclass = .ok () ∧ ¬ ambiguousCompiler.DispatchExact := by
  refine ⟨ambiguousCompiler.initSubclass_eq_ok_iff.mpr (.inr (by decide)), fun h => ?_⟩
  have hsame := h.separate ⟨.none, .eq, "b__c"⟩ ⟨.none, .eq, "c"⟩ "a" "a__b" "compile_a__b__c__eq"
    (by decide) (by decide) (by decide) (by decide) rfl rfl
  exact absurd hsame.1 (by decide)

end SqlAlchemyFiltersCompiler

end ApiTemplate.Filtering
