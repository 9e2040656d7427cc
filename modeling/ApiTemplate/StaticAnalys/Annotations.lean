import Mathlib.Data.List.Dedup
import Mathlib.Tactic.Common

/-!
# Annotations

What stands behind a colon or an arrow once Python has evaluated it: a class, a marker, or a flat
union of distinct members, with `==`, `repr` and `typing`'s view of each.
-/

namespace ApiTemplate.StaticAnalys

/-! ## Annotations -/

/-- A class other than `NoneType`, with the name that `typing` writes for it. Two classes may have
one name. -/
structure Class where
  id : ℕ
  name : String
  name_first : ∃ c cs, name.toList = c :: cs ∧ c ≠ '<'
  name_ne : name ≠ "NoneType"
  deriving DecidableEq

/-- Annotations other than unions. Of a subscripted generic, a string and the like, `other` has
what `==`, `repr` and `str` tell. -/
inductive Plain
  | empty
  | any
  | none
  | noneType
  | typeVar (id : ℕ) (name : String)
  | cls (c : Class)
  | other (id : ℕ) (text shown : String)
  deriving DecidableEq

/-- `typing.Union`, and `types.UnionType` for `X | Y`. -/
inductive UnionOrigin
  | union
  | unionType
  deriving DecidableEq

/-- The origins that the code asks for. `typing.Awaitable` is none of any annotation: that of
`Awaitable[T]` is the class of `collections.abc`. -/
inductive Origin
  | ofUnion (origin : UnionOrigin)
  | awaitable
  deriving DecidableEq

/-- A union: flat, without repetitions, and with `NoneType` for `None`. -/
structure Union where
  origin : UnionOrigin
  args : List Plain
  nodup : args.Nodup
  two : 2 ≤ args.length
  not_none : Plain.none ∉ args
  deriving DecidableEq

inductive Ann
  | plain (p : Plain)
  | union (u : Union)
  deriving DecidableEq

namespace Ann

def getOrigin : Ann → Option Origin
  | plain _ => .none
  | union u => some (.ofUnion u.origin)

def getArgs : Ann → List Plain
  | plain _ => []
  | union u => u.args

/-- `a == b`: unions are compared as sets, across both spellings. -/
def eq : Ann → Ann → Bool
  | plain p, plain q => p = q
  | union u, union v => u.args ⊆ v.args ∧ v.args ⊆ u.args
  | _, _ => false

/-- The members that a value can belong to. What is no union is its own only member, and `None`
stands for its type. -/
def members : Ann → List Plain
  | plain .none => [.noneType]
  | plain p => [p]
  | union u => u.args

/-- The members beside `NoneType`. -/
def inners (a : Ann) : List Plain := a.members.filter (· ≠ .noneType)

end Ann

/-! ## `repr` -/

namespace Plain

def repr : Plain → String
  | empty => "<class 'inspect._empty'>"
  | any => "typing.Any"
  | none => "None"
  | noneType => "<class 'NoneType'>"
  | typeVar _ name => "~" ++ name
  | cls c => "<class '" ++ c.name ++ "'>"
  | other _ text _ => text

/-- `typing._type_repr` -/
def typeRepr : Plain → String
  | noneType => "NoneType"
  | cls c => c.name
  | p => p.repr

/-- A member of `X | Y`, as it is written. -/
def unionRepr : Plain → String
  | noneType => "None"
  | p => p.typeRepr

end Plain

def Union.repr (u : Union) : String :=
  match u.origin, u.args with
  | .unionType, args => " | ".intercalate (args.map Plain.unionRepr)
  | _, [.noneType, p] => "typing.Optional[" ++ p.typeRepr ++ "]"
  | _, [p, .noneType] => "typing.Optional[" ++ p.typeRepr ++ "]"
  | _, args => "typing.Union[" ++ ", ".intercalate (args.map Plain.typeRepr) ++ "]"

def Ann.repr : Ann → String
  | plain p => p.repr
  | union u => u.repr

/-- `str`, which is `repr` of classes, unions and the markers. -/
def Ann.str : Ann → String
  | plain (.other _ _ shown) => shown
  | a => a.repr

/-! ## Building unions -/

/-- A member of a union, which has `NoneType` for `None`. -/
def Plain.converted : Plain → Plain
  | none => noneType
  | p => p

/-- The first of each of the members. -/
def distinct (members : List Plain) : List Plain :=
  (members.map Plain.converted).reverse.dedup.reverse

theorem mem_distinct {members : List Plain} {p : Plain} :
    p ∈ distinct members ↔ p ∈ members.map Plain.converted := by
  rw [distinct, List.mem_reverse, List.mem_dedup, List.mem_reverse]

theorem nodup_distinct (members : List Plain) : (distinct members).Nodup :=
  List.nodup_reverse.mpr (List.nodup_dedup _)

theorem none_not_mem_distinct (members : List Plain) : Plain.none ∉ distinct members := by
  rw [mem_distinct, List.mem_map]
  rintro ⟨p, -, hp⟩
  cases p <;> cases hp

theorem converted_of_mem {a : Ann} {p : Plain} (h : p ∈ a.members) : p.converted = p := by
  cases a with
  | plain q => cases q <;> obtain rfl := List.mem_singleton.mp h <;> rfl
  | union u =>
    cases p with
    | none => exact absurd h u.not_none
    | _ => rfl

theorem members_ne_nil (a : Ann) : a.members ≠ [] := by
  cases a with
  | plain p => cases p <;> exact List.cons_ne_nil _ _
  | union u =>
    intro h
    have htwo := u.two
    rw [show u.args = [] from h] at htwo
    exact absurd htwo (by decide)

/-- The union of the members, of which there is one at least: a single member is itself. -/
def unionOf (origin : UnionOrigin) (members : List Plain) : Ann :=
  if h : 2 ≤ (distinct members).length then
    .union ⟨origin, distinct members, nodup_distinct members, h, none_not_mem_distinct members⟩
  else .plain ((distinct members).headD .noneType)

theorem mem_members_unionOf (origin : UnionOrigin) {members : List Plain} (hne : members ≠ [])
    {p : Plain} : p ∈ (unionOf origin members).members ↔ p ∈ members.map Plain.converted := by
  rw [← mem_distinct]
  unfold unionOf
  split
  · rfl
  · next h =>
    obtain ⟨q, hq⟩ : ∃ q, distinct members = [q] := by
      refine List.length_eq_one_iff.mp ?_
      obtain ⟨q, rest, rfl⟩ := List.exists_cons_of_ne_nil hne
      have hpos := List.length_pos_of_mem
        (mem_distinct.mpr (List.mem_map_of_mem (f := Plain.converted) List.mem_cons_self :
          q.converted ∈ (q :: rest).map Plain.converted))
      omega
    have hnone : q ≠ .none := by
      rintro rfl
      have hmem := none_not_mem_distinct members
      rw [hq] at hmem
      exact hmem List.mem_cons_self
    rw [hq]
    cases q <;> first | rfl | exact absurd rfl hnone

/-- A union of two annotations has the members of both. -/
theorem mem_members_unionOf_append (origin : UnionOrigin) (a b : Ann) {p : Plain} :
    p ∈ (unionOf origin (a.members ++ b.members)).members ↔ p ∈ a.members ∨ p ∈ b.members := by
  have hne : a.members ++ b.members ≠ [] := List.append_ne_nil_of_left_ne_nil (members_ne_nil a) _
  rw [mem_members_unionOf origin hne, List.mem_map]
  constructor
  · rintro ⟨q, hq, rfl⟩
    rcases List.mem_append.mp hq with ha | hb
    · exact .inl (by rwa [converted_of_mem ha])
    · exact .inr (by rwa [converted_of_mem hb])
  · rintro (ha | hb)
    · exact ⟨p, List.mem_append_left _ ha, converted_of_mem ha⟩
    · exact ⟨p, List.mem_append_right _ hb, converted_of_mem hb⟩

/-! ## Expressions -/

/-- An annotation as it is written, with `Union[a, b, c]` for `Union[a, Union[b, c]]`. -/
inductive Expr
  | none
  | noneType
  | cls (c : Class)
  | optional (e : Expr)
  | union (a b : Expr)
  | or (a b : Expr)

/-- `a | b`: `None` has no such operator, and a union of `typing` makes another. -/
def Ann.or (a b : Ann) : Option Ann :=
  if a = plain .none ∧ b = plain .none then .none
  else if a.getOrigin = some (.ofUnion .union) ∨ b.getOrigin = some (.ofUnion .union) then
    some (unionOf .union (a.members ++ b.members))
  else some (unionOf .unionType (a.members ++ b.members))

namespace Expr

def evaluate : Expr → Option Ann
  | none => some (.plain .none)
  | noneType => some (.plain .noneType)
  | cls c => some (.plain (.cls c))
  | optional e => do
    let a ← e.evaluate
    some (unionOf .union (a.members ++ [.noneType]))
  | union a b => do
    let a ← a.evaluate
    let b ← b.evaluate
    some (unionOf .union (a.members ++ b.members))
  | or a b => do
    let a ← a.evaluate
    let b ← b.evaluate
    a.or b

/-- The classes that are written, `NoneType` for `None`. -/
def classes : Expr → List Plain
  | none => [.noneType]
  | noneType => [.noneType]
  | cls c => [.cls c]
  | optional e => e.classes ++ [.noneType]
  | union a b => a.classes ++ b.classes
  | or a b => a.classes ++ b.classes

/-- However unions are nested, the members are the classes that are written. -/
theorem mem_members_of_evaluate {e : Expr} {a : Ann} (h : e.evaluate = some a)
    {p : Plain} : p ∈ a.members ↔ p ∈ e.classes := by
  induction e generalizing a with
  | none | noneType | cls c =>
    obtain rfl := Option.some.inj h
    rfl
  | optional e ih =>
    obtain ⟨a, he, hunion⟩ := Option.bind_eq_some_iff.mp h
    obtain rfl := Option.some.inj hunion
    rw [show [Plain.noneType] = (Ann.plain .none).members from rfl,
      mem_members_unionOf_append, ih he, classes, List.mem_append]
    rfl
  | union d e ihd ihe =>
    obtain ⟨a, hd, hrest⟩ := Option.bind_eq_some_iff.mp h
    obtain ⟨b, he, hunion⟩ := Option.bind_eq_some_iff.mp hrest
    obtain rfl := Option.some.inj hunion
    rw [mem_members_unionOf_append, ihd hd, ihe he, classes, List.mem_append]
  | or d e ihd ihe =>
    obtain ⟨a, hd, hrest⟩ := Option.bind_eq_some_iff.mp h
    obtain ⟨b, he, hor⟩ := Option.bind_eq_some_iff.mp hrest
    rw [classes, List.mem_append, ← ihd hd, ← ihe he]
    unfold Ann.or at hor
    split at hor
    · cases hor
    · split at hor
      · obtain rfl := Option.some.inj hor
        exact mem_members_unionOf_append _ a b
      · obtain rfl := Option.some.inj hor
        exact mem_members_unionOf_append _ a b

end Expr

/-! ## Annotations of classes -/

def Plain.isClass : Plain → Bool
  | noneType => true
  | cls _ => true
  | _ => false

/-- Every member is a class. -/
def Ann.OfClasses (a : Ann) : Prop := ∀ p ∈ a.members, p.isClass = true

theorem Expr.isClass_of_mem_classes {e : Expr} {p : Plain} (h : p ∈ e.classes) :
    p.isClass = true := by
  induction e with
  | none | noneType | cls c =>
    obtain rfl := List.mem_singleton.mp h
    rfl
  | optional e ih =>
    rcases List.mem_append.mp h with he | hnone
    · exact ih he
    · obtain rfl := List.mem_singleton.mp hnone
      rfl
  | union a b iha ihb | or a b iha ihb =>
    rcases List.mem_append.mp h with ha | hb
    · exact iha ha
    · exact ihb hb

theorem Expr.ofClasses_of_evaluate {e : Expr} {a : Ann} (h : e.evaluate = some a) :
    a.OfClasses :=
  fun _ hp => isClass_of_mem_classes ((mem_members_of_evaluate h).mp hp)

/-! ## What `repr` tells of classes -/

theorem cls_repr_first (c : Class) : ∃ cs, (Plain.cls c).repr.toList = '<' :: cs := by
  refine ⟨"class '".toList ++ c.name.toList ++ "'>".toList, ?_⟩
  show ("<class '" ++ c.name ++ "'>").toList = _
  rw [String.toList_append, String.toList_append]
  rfl

theorem cls_repr_ne (c : Class) :
    (Plain.cls c).repr ≠ Plain.none.repr ∧ (Plain.cls c).repr ≠ Plain.noneType.repr := by
  constructor
  · intro h
    obtain ⟨cs, hcs⟩ := cls_repr_first c
    rw [h] at hcs
    exact absurd (List.cons.inj hcs).1 (by decide)
  · intro h
    have hnone : Plain.noneType.repr = "<class '" ++ "NoneType" ++ "'>" := rfl
    rw [hnone, Plain.repr, String.append_left_inj, String.append_right_inj] at h
    exact c.name_ne h

theorem unionRepr_first {p : Plain} (hp : p.isClass = true) :
    ∃ c cs, p.unionRepr.toList = c :: cs ∧ c ≠ '<' := by
  cases p with
  | noneType => exact ⟨'N', _, rfl, by decide⟩
  | cls c => exact c.name_first
  | _ => cases hp

/-- The text of `X | Y` begins as that of its first member, and it has a bar. -/
theorem unionType_repr {p q : Plain} (rest : List Plain) (hp : p.isClass = true) :
    ∃ c cs, (" | ".intercalate ((p :: q :: rest).map Plain.unionRepr)).toList = c :: cs ∧
      c ≠ '<' ∧ '|' ∈ c :: cs := by
  obtain ⟨c, cs, hcs, hc⟩ := unionRepr_first hp
  have hlist : (" | ".intercalate ((p :: q :: rest).map Plain.unionRepr)).toList =
      c :: (cs ++ ' ' :: '|' :: ' ' ::
        (" | ".intercalate ((q :: rest).map Plain.unionRepr)).toList) := by
    rw [List.map_cons, List.map_cons, String.intercalate_cons_cons, String.toList_append,
      String.toList_append, hcs, List.append_assoc]
    rfl
  refine ⟨_, _, hlist, hc, ?_⟩
  simp

theorem Union.exists_args (u : Union) : ∃ p q rest, u.args = p :: q :: rest := by
  have htwo := u.two
  rcases hargs : u.args with _ | ⟨p, _ | ⟨q, rest⟩⟩
  · simp [hargs] at htwo
  · simp [hargs] at htwo
  · exact ⟨p, q, rest, rfl⟩

theorem Union.repr_first {u : Union} (hu : (Ann.union u).OfClasses) :
    ∃ c cs, u.repr.toList = c :: cs ∧ c ≠ '<' ∧ (c = 't' ∨ '|' ∈ c :: cs) := by
  unfold Union.repr
  split
  · obtain ⟨p, q, rest, hargs⟩ := u.exists_args
    have hp : p ∈ (Ann.union u).members := by
      rw [Ann.members, hargs]
      exact List.mem_cons_self
    obtain ⟨c, cs, htext, hc, hbar⟩ := unionType_repr (q := q) rest (hu p hp)
    rw [← hargs] at htext
    exact ⟨c, cs, htext, hc, .inr hbar⟩
  all_goals
    rw [String.toList_append, String.toList_append]
    exact ⟨'t', _, rfl, by decide, .inl rfl⟩

/-- A union of classes is written as no class is, and not as `None`. -/
theorem repr_ne_union {u : Union} (hu : (Ann.union u).OfClasses) {p : Plain}
    (hp : p.isClass = true ∨ p = .none) : p.repr ≠ u.repr := by
  obtain ⟨c, cs, htext, hc, hmark⟩ := Union.repr_first hu
  intro h
  rw [← h] at htext
  rcases hp with hp | rfl
  · cases p with
    | noneType => exact hc (List.cons.inj htext).1.symm
    | cls d =>
      obtain ⟨ds, hds⟩ := cls_repr_first d
      exact hc (List.cons.inj (hds.symm.trans htext)).1.symm
    | _ => cases hp
  · have hnone : "None".toList = c :: cs := htext
    rw [← hnone] at hmark
    rcases hmark with rfl | hbar
    · exact absurd (List.cons.inj hnone).1 (by decide)
    · exact absurd hbar (by decide)

end ApiTemplate.StaticAnalys
