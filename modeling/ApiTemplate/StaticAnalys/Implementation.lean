import ApiTemplate.Calls.Parameters
import ApiTemplate.Collections.Dict
import ApiTemplate.Fallible.Results
import ApiTemplate.StaticAnalys.ReturnTypes

/-!
# Implementations

`ensure_isimplementation` walks over the methods that a base declares itself and compares their
parameters with those of the target, pair by pair. A default that the target drops and a parameter
that it adds go unnoticed.
-/

namespace ApiTemplate.StaticAnalys

open Calls

/-! ## Classes -/

/-- `inspect.Signature` -/
structure Signature where
  parameters : List Parameter
  returnAnn : Ann
  ordered : parameters.Pairwise Parameter.Precedes

/-- An attribute of a class: a function, what wraps one, another callable with the signature that
`inspect` finds of it, or anything else. -/
inductive Attr
  | function (signature : Signature)
  | staticmethod (signature : Signature)
  | classmethod (signature : Signature)
  | callable (signature : Option Signature)
  | value

/-- A class, with the namespaces of its `__mro__`, of which the first is its own, and what it has
of its metaclass. -/
structure ClassObject where
  name : String
  mro : List (List (String × Attr))
  metaclass : List (String × Attr)

/-- `TypeAssertionException`, or what `inspect.signature` raises. -/
inductive Error
  | typeAssertion (message : String)
  | typeError
  | valueError
  deriving DecidableEq

/-- `TypeAssertionException(target, base)` -/
def typeAssertionException (target base : ClassObject) : Error :=
  .typeAssertion (target.name ++ " is not a implementation of " ++ base.name ++ " class.")

/-- The signature of a bound method, whose first argument is given. -/
def Signature.bound (s : Signature) : Except Error Signature :=
  match s with
  | ⟨[], _, _⟩ => .error .valueError
  | ⟨p :: ps, returnAnn, ordered⟩ =>
    match p.kind with
    | .positionalOnly => .ok ⟨ps, returnAnn, ordered.of_cons⟩
    | .positionalOrKeyword => .ok ⟨ps, returnAnn, ordered.of_cons⟩
    | .varPositional => .ok s
    | _ => .error .valueError

namespace Attr

/-- `callable` of the attribute in the namespace: a class method is not. -/
def isCallable : Attr → Bool
  | function _ => true
  | staticmethod _ => true
  | callable _ => true
  | _ => false

def isMethod : Attr → Bool
  | function _ => true
  | staticmethod _ => true
  | classmethod _ => true
  | _ => false

/-- `inspect.signature` of the attribute as the class gives it. -/
def signature : Attr → Except Error Signature
  | function s => .ok s
  | staticmethod s => .ok s
  | classmethod s => s.bound
  | callable (some s) => .ok s
  | callable none => .error .valueError
  | value => .error .typeError

end Attr

namespace ClassObject

/-- `__dict__` -/
def dict (c : ClassObject) : List (String × Attr) := c.mro.headD []

def getattr (c : ClassObject) (name : String) : Option Attr :=
  (c.mro ++ [c.metaclass]).findSome? (Dict.get? · name)

/-- The signature of an attribute. -/
def signature (c : ClassObject) (name : String) : Option Signature :=
  (c.getattr name).bind (·.signature.toOption)

/-- The signature of a method, declared or inherited. -/
def methodSignature (c : ClassObject) (name : String) : Option Signature :=
  ((c.mro.findSome? (Dict.get? · name)).filter Attr.isMethod).bind (·.signature.toOption)

end ClassObject

/-! ## `assertion_funcs.py` -/

/-- Not skipped for its name. -/
def isPublic (name : String) : Bool := name.toList.head? ≠ some '_' || name = "__call__"

def kindName : ParameterKind → String
  | .positionalOnly => "POSITIONAL_ONLY"
  | .positionalOrKeyword => "POSITIONAL_OR_KEYWORD"
  | .varPositional => "VAR_POSITIONAL"
  | .keywordOnly => "KEYWORD_ONLY"
  | .varKeyword => "VAR_KEYWORD"

/-- What is logged about a pair of parameters. -/
def pairComplaints (name : String) (b t : Parameter) : List String :=
  (if b.name ≠ t.name then
    ["param name mismatch in " ++ name ++ ": " ++ b.name ++ " != " ++ t.name] else []) ++
  (if b.kind ≠ t.kind then
    ["kind mismatch in " ++ name ++ ": " ++ kindName b.kind ++ " != " ++ kindName t.kind]
    else []) ++
  if !b.hasDefault && t.hasDefault then ["param " ++ b.name ++ " should be required"] else []

/-- What is logged about a method. -/
def methodComplaints (target base : ClassObject) (name : String) (baseSig targetSig : Signature) :
    List String :=
  (if baseSig.parameters.length > targetSig.parameters.length then
    [target.name ++ "." ++ name ++ " has fewer parameters than " ++ base.name ++ "." ++ name]
    else []) ++
  (baseSig.parameters.zip targetSig.parameters).flatMap
    (fun pair => pairComplaints name pair.1 pair.2) ++
  (if baseSig.returnAnn ≠ .plain .empty && targetSig.returnAnn = .plain .empty then
    [target.name ++ "." ++ name ++ " should declare return type"] else []) ++
  if !isReturnCompatible baseSig.returnAnn targetSig.returnAnn then
    ["Return type mismatch in " ++ target.name ++ "." ++ name ++ ". Expected '" ++
      baseSig.returnAnn.str ++ "', got '" ++ targetSig.returnAnn.str ++ "'"]
  else []

/-- The loop over the attributes of a base, with what it logs. -/
def checkItems (target base : ClassObject) : List (String × Attr) → Except Error (List String)
  | [] => .ok []
  | (name, baseAttr) :: items =>
    if !isPublic name then checkItems target base items
    else if !baseAttr.isCallable then checkItems target base items
    else
      match target.getattr name with
      -- the loop breaks, so that nothing else is compared
      | none => .ok [target.name ++ " missing the attribute '" ++ name ++ "'"]
      | some targetAttr => do
        let baseSig ← baseAttr.signature
        let targetSig ← targetAttr.signature
        let complaints ← checkItems target base items
        .ok (methodComplaints target base name baseSig targetSig ++ complaints)

inductive OnErr
  | raise
  | warning
  deriving DecidableEq

/-- What is logged, at which level. -/
inductive Line
  | critical (text : String)
  | warning (text : String)
  deriving DecidableEq

/-- The loop over the bases. `_is` is not set to `True` again for the next. -/
def checkBases (target : ClassObject) (onErr : OnErr) :
    Bool → List ClassObject → Except Error (List Line)
  | _, [] => .ok []
  | isSo, base :: bases => do
    let complaints ← checkItems target base base.dict
    let isSo := isSo && complaints.isEmpty
    if !isSo && onErr = .raise then .error (typeAssertionException target base)
    else do
      let lines ← checkBases target onErr isSo bases
      .ok (complaints.map .critical ++ (if isSo then [] else
        [.warning (target.name ++ " is not a implementation of " ++ base.name ++ " class.")]) ++
        lines)

/-- `target`: a class, or several. -/
inductive Target
  | one (target : ClassObject)
  | many (targets : List ClassObject)

/-- `ensure_isimplementation` -/
def ensureIsimplementation (target : Target) (bases : List ClassObject) (onErr : OnErr := .raise) :
    Except Error (List Line) :=
  match target with
  | .one target => checkBases target onErr true bases
  | .many targets => (targets.mapM fun one => checkBases one onErr true bases).map List.flatten

/-! ## Calls of the methods -/

/-- The target has the attribute, and it takes every call of the signature. -/
def Takes (target : ClassObject) (name : String) (b : Signature) : Prop :=
  ∃ t, target.signature name = some t ∧
    ∀ n names, binds b.parameters n names = true → binds t.parameters n names = true

/-- Every call of a public method of the base is one of the target's. -/
def Substitutable (target base : ClassObject) : Prop :=
  ∀ name, isPublic name = true → ∀ b, base.methodSignature name = some b → Takes target name b

/-- The attribute is looked at: the base declares it itself, and not as a class method. -/
def Compared (base : ClassObject) (name : String) : Prop :=
  ∃ attr, Dict.get? base.dict name = some attr ∧ attr.isCallable = true

/-- What the comparison leaves open: no default is dropped, no required parameter is added, and
the target takes the calls of the methods that are not looked at. -/
structure Preserved (target base : ClassObject) : Prop where
  compared : ∀ name, isPublic name = true → Compared base name →
    ∀ b, base.methodSignature name = some b → ∀ t, target.signature name = some t →
      Kept b.parameters t.parameters
  others : ∀ name, isPublic name = true → ¬ Compared base name →
    ∀ b, base.methodSignature name = some b → Takes target name b

theorem matched_of_methodComplaints {target base : ClassObject} {name : String}
    {b t : Signature} (h : methodComplaints target base name b t = []) :
    Matched b.parameters t.parameters := by
  simp only [methodComplaints, List.append_eq_nil_iff, and_assoc] at h
  obtain ⟨hlength, hpairs, -, -⟩ := h
  have hpair : ∀ p ∈ b.parameters.zip t.parameters, p.1.name = p.2.name ∧ p.1.kind = p.2.kind ∧
      (p.1.hasDefault = false → p.2.hasDefault = false) := by
    intro p hp
    simpa [pairComplaints, and_assoc] using List.flatMap_eq_nil_iff.mp hpairs p hp
  refine ⟨?_, fun p hp => (hpair p hp).1, fun p hp => (hpair p hp).2.1,
    fun p hp => (hpair p hp).2.2⟩
  by_contra hlt
  rw [if_pos (Nat.lt_of_not_le hlt)] at hlength
  cases hlength

/-- Every attribute that is looked at has been found and compared. -/
theorem matched_of_checkItems {target base : ClassObject} {items : List (String × Attr)}
    (h : checkItems target base items = .ok []) {name : String} {attr : Attr}
    (hmem : (name, attr) ∈ items) (hpublic : isPublic name = true)
    (hcallable : attr.isCallable = true) :
    ∃ b t, attr.signature = .ok b ∧ target.signature name = some t ∧
      Matched b.parameters t.parameters := by
  induction items with
  | nil => exact absurd hmem List.not_mem_nil
  | cons item items ih =>
    obtain ⟨name', attr'⟩ := item
    unfold checkItems at h
    rcases List.mem_cons.mp hmem with heq | hmem
    · obtain ⟨rfl, rfl⟩ := Prod.mk.inj heq
      rw [if_neg (by rw [hpublic]; decide), if_neg (by rw [hcallable]; decide)] at h
      split at h
      · cases h
      · next targetAttr htarget =>
        obtain ⟨b, hb, h⟩ := Fallible.bind_eq_ok.mp h
        obtain ⟨t, ht, h⟩ := Fallible.bind_eq_ok.mp h
        obtain ⟨complaints, hcomplaints, h⟩ := Fallible.bind_eq_ok.mp h
        have hnil := (List.append_eq_nil_iff.mp (Except.ok.inj h)).1
        refine ⟨b, t, hb, ?_, matched_of_methodComplaints hnil⟩
        rw [ClassObject.signature, htarget, Option.bind_some, ht]
        rfl
    · split at h
      · exact ih h hmem
      · split at h
        · exact ih h hmem
        · split at h
          · cases h
          · obtain ⟨b, hb, h⟩ := Fallible.bind_eq_ok.mp h
            obtain ⟨t, ht, h⟩ := Fallible.bind_eq_ok.mp h
            obtain ⟨complaints, hcomplaints, h⟩ := Fallible.bind_eq_ok.mp h
            obtain rfl := (List.append_eq_nil_iff.mp (Except.ok.inj h)).2
            exact ih hcomplaints hmem

/-- With `on_err="raise"` the check returns only if nothing is complained about. -/
theorem checkItems_of_ok {target base : ClassObject} {lines : List Line}
    (h : ensureIsimplementation (.one target) [base] = .ok lines) :
    checkItems target base base.dict = .ok [] := by
  obtain ⟨complaints, hcomplaints, h⟩ := Fallible.bind_eq_ok.mp h
  cases complaints with
  | nil => exact hcomplaints
  | cons complaint complaints => cases h

/-- A class's own namespace is looked at first. -/
theorem findSome?_of_dict {base : ClassObject} {name : String} {attr : Attr}
    (h : Dict.get? base.dict name = some attr) :
    base.mro.findSome? (Dict.get? · name) = some attr := by
  unfold ClassObject.dict at h
  cases hmro : base.mro with
  | nil =>
    rw [hmro] at h
    cases h
  | cons dict mro =>
    rw [hmro] at h
    have hdict : Dict.get? dict name = some attr := h
    rw [List.findSome?_cons, hdict]

/-- What the check tells of a method that it looks at. -/
theorem matched_of_ok {target base : ClassObject} {lines : List Line}
    (h : ensureIsimplementation (.one target) [base] = .ok lines) {name : String}
    (hpublic : isPublic name = true) (hcompared : Compared base name) {b : Signature}
    (hb : base.methodSignature name = some b) :
    ∃ t, target.signature name = some t ∧ Matched b.parameters t.parameters := by
  obtain ⟨attr, hattr, hcallable⟩ := hcompared
  obtain ⟨b', t, hb', ht, hmatched⟩ := matched_of_checkItems (checkItems_of_ok h)
    (Dict.mem_of_get? hattr) hpublic hcallable
  obtain rfl : b = b' := by
    rw [ClassObject.methodSignature, findSome?_of_dict hattr] at hb
    obtain ⟨attr', hfilter, hsignature⟩ := Option.bind_eq_some_iff.mp hb
    obtain rfl := Option.some.inj (Option.filter_eq_some_iff.mp hfilter).1
    rw [hb'] at hsignature
    exact (Option.some.inj hsignature).symm
  exact ⟨t, ht, hmatched⟩

/-- Where the check returns, the target takes every call of the base exactly if what it leaves open
holds. -/
theorem substitutable_iff {target base : ClassObject} {lines : List Line}
    (h : ensureIsimplementation (.one target) [base] = .ok lines) :
    Substitutable target base ↔ Preserved target base := by
  constructor
  · intro hsubstitutable
    refine ⟨fun name hpublic hcompared b hb t ht => ?_, fun name hpublic _ b hb =>
      hsubstitutable name hpublic b hb⟩
    obtain ⟨t', ht', hmatched⟩ := matched_of_ok h hpublic hcompared hb
    obtain rfl := Option.some.inj (ht.symm.trans ht')
    obtain ⟨t', ht', hbinds⟩ := hsubstitutable name hpublic b hb
    obtain rfl := Option.some.inj (ht.symm.trans ht')
    exact (forall_binds_iff b.ordered hmatched).mp hbinds
  · intro hpreserved name hpublic b hb
    by_cases hcompared : Compared base name
    · obtain ⟨t, ht, hmatched⟩ := matched_of_ok h hpublic hcompared hb
      exact ⟨t, ht, (forall_binds_iff b.ordered hmatched).mpr
        (hpreserved.compared name hpublic hcompared b hb t ht)⟩
    · exact hpreserved.others name hpublic hcompared b hb

/-- The methods of a class with a single one, `def get(self, key)`, whose `key` has a default or
not. -/
def getter (name : String) (hasDefault : Bool) : ClassObject where
  name := name
  mro := [[("get", .function
    { parameters := [⟨"self", .positionalOrKeyword, false, fun _ => rfl⟩,
        ⟨"key", .positionalOrKeyword, hasDefault, fun h => by cases h⟩]
      returnAnn := .plain .empty
      ordered := by revert hasDefault; decide })]]
  metaclass := []

theorem substitutable_iff_getter :
    Substitutable (getter "Cache" true) (getter "CacheProto" true) ↔
      Preserved (getter "Cache" true) (getter "CacheProto" true) :=
  substitutable_iff (show ensureIsimplementation (.one (getter "Cache" true))
    [getter "CacheProto" true] = .ok [] from rfl)

/-- The default of `key` is dropped, and `get(self)` binds no more. -/
theorem not_substitutable :
    ensureIsimplementation (.one (getter "Cache" false)) [getter "CacheProto" true] = .ok [] ∧
      ¬ Substitutable (getter "Cache" false) (getter "CacheProto" true) := by
  refine ⟨rfl, fun h => ?_⟩
  obtain ⟨t, ht, hbinds⟩ := h "get" (by decide) _ rfl
  obtain rfl := Option.some.inj ht
  exact absurd (hbinds 1 [] (by decide)) (by decide)

end ApiTemplate.StaticAnalys
