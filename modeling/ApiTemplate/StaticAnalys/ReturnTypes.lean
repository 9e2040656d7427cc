import ApiTemplate.StaticAnalys.Annotations

/-!
# Return types

`_is_return_compatible` asks whether a return type is no wider than the declared one. It finds a
single class among the members of a union, and misses narrower types of every other shape.
-/

namespace ApiTemplate.StaticAnalys

open Ann

/-! ## `assertion_funcs.py` -/

/-- `_is_same_type` -/
def isSameType (a b : Ann) : Bool := a.repr = b.repr

/-- `_is_union_origin` -/
def isUnionOrigin (origin : Option Origin) : Bool :=
  origin = some (.ofUnion .union) || origin = some (.ofUnion .unionType)

def Ann.isTypeVar : Ann → Bool
  | plain (.typeVar _ _) => true
  | _ => false

/-- `target_inner`, of the members beside `NoneType`: an optional union has one at least. -/
def targetInner (targetInners : List Plain) : Ann :=
  if targetInners.length = 1 then plain (targetInners.headD .noneType)
  else unionOf .union targetInners

/-- The body of `_is_return_compatible`, with `again` for its calls of itself. -/
def isReturnCompatibleBody (again : Ann → Ann → Bool)
    (baseAnn targetAnn : Ann) : Bool :=
  if baseAnn = plain .empty then true
  else if targetAnn = plain .empty then false
  else if baseAnn = plain .any then true
  else if baseAnn.eq targetAnn then true
  else if baseAnn.isTypeVar then true
  else
    let baseOrigin := baseAnn.getOrigin
    let targetOrigin := targetAnn.getOrigin
    let baseArgs := baseAnn.getArgs
    let targetArgs := targetAnn.getArgs
    if isUnionOrigin baseOrigin && decide (.noneType ∈ baseArgs) then
      let baseInners := baseArgs.filter (· ≠ .noneType)
      if isUnionOrigin targetOrigin && decide (.noneType ∈ targetArgs) then
        let targetInners := targetArgs.filter (· ≠ .noneType)
        baseInners.any fun baseInner => again (plain baseInner) (targetInner targetInners)
      else baseInners.any fun baseInner => again (plain baseInner) targetAnn
    else if isUnionOrigin targetOrigin && decide (.noneType ∈ targetArgs) &&
        !isUnionOrigin baseOrigin then false
    else if isUnionOrigin baseOrigin then baseArgs.any fun opt => again (plain opt) targetAnn
    else if baseOrigin = some .awaitable && targetOrigin = some .awaitable then true
    else isSameType baseAnn targetAnn

/-- `_is_return_compatible`. It calls itself on members of unions, which are no unions, so that
these calls make none. -/
def isReturnCompatible : Ann → Ann → Bool :=
  isReturnCompatibleBody (isReturnCompatibleBody fun _ _ => false)

/-- The equation of the source. -/
theorem isReturnCompatible_eq (baseAnn targetAnn : Ann) :
    isReturnCompatible baseAnn targetAnn =
      isReturnCompatibleBody isReturnCompatible baseAnn targetAnn := by
  have hplain : ∀ p target, isReturnCompatible (plain p) target =
      isReturnCompatibleBody (fun _ _ => false) (plain p) target := fun p target => rfl
  unfold isReturnCompatibleBody
  simp only [hplain]
  rfl

/-! ## Annotations of classes -/

@[simp] theorem isUnionOrigin_plain (p : Plain) :
    isUnionOrigin (plain p).getOrigin = false := rfl

@[simp] theorem isUnionOrigin_union (u : Union) :
    isUnionOrigin (Ann.union u).getOrigin = true := by
  rw [getOrigin]
  cases u.origin <;> rfl

/-- The plain annotations of classes are the classes and `None`. -/
theorem Ann.OfClasses.plain_cases {p : Plain} (h : (plain p).OfClasses) :
    p.isClass = true ∨ p = .none := by
  cases p with
  | none => exact .inr rfl
  | _ => exact .inl (h _ List.mem_cons_self)

/-- None of the markers is among the annotations of classes. -/
theorem Ann.OfClasses.not_marker {a : Ann} (h : a.OfClasses) :
    a ≠ plain .empty ∧ a ≠ plain .any ∧ a.isTypeVar = false := by
  cases a with
  | plain p =>
    rcases h.plain_cases with hp | rfl
    · cases p with
      | noneType | cls c => exact ⟨by simp, by simp, rfl⟩
      | _ => cases hp
    · exact ⟨by simp, by simp, rfl⟩
  | union u => exact ⟨by simp, by simp, rfl⟩

theorem ofClasses_plain {p : Plain} (hp : p.isClass = true) : (plain p).OfClasses := by
  intro q hq
  cases p with
  | noneType | cls c =>
    obtain rfl := List.mem_singleton.mp hq
    rfl
  | _ => cases hp

/-- Without markers, and where nothing is restated, the unions are looked at. -/
theorem body_of_classes (again : Ann → Ann → Bool) {base target : Ann}
    (hbase : base.OfClasses) (htarget : target.OfClasses) (hne : base.eq target = false) :
    isReturnCompatibleBody again base target =
      if isUnionOrigin base.getOrigin && decide (.noneType ∈ base.getArgs) then
        if isUnionOrigin target.getOrigin && decide (.noneType ∈ target.getArgs) then
          (base.getArgs.filter (· ≠ .noneType)).any fun baseInner =>
            again (plain baseInner) (targetInner (target.getArgs.filter (· ≠ .noneType)))
        else (base.getArgs.filter (· ≠ .noneType)).any fun baseInner =>
          again (plain baseInner) target
      else if isUnionOrigin target.getOrigin && decide (.noneType ∈ target.getArgs) &&
          !isUnionOrigin base.getOrigin then false
      else if isUnionOrigin base.getOrigin then
        base.getArgs.any fun opt => again (plain opt) target
      else isSameType base target := by
  obtain ⟨hempty, hany, htypeVar⟩ := hbase.not_marker
  have hawaitable : ¬ (decide (base.getOrigin = some .awaitable) &&
      decide (target.getOrigin = some .awaitable)) = true := by
    cases base <;> simp [getOrigin]
  unfold isReturnCompatibleBody
  rw [if_neg hempty, if_neg htarget.not_marker.1, if_neg hany, hne, htypeVar]
  dsimp only
  rw [if_neg hawaitable]
  rfl

/-- A union with `None` among its members. -/
def Ann.isOptional (a : Ann) : Bool :=
  isUnionOrigin a.getOrigin && decide (.noneType ∈ a.getArgs)

theorem exists_union_of_isOptional {a : Ann} (h : a.isOptional = true) :
    ∃ u, a = .union u ∧ .noneType ∈ u.args := by
  rw [isOptional, Bool.and_eq_true, decide_eq_true_eq] at h
  cases a with
  | plain p => cases h.1
  | union u => exact ⟨u, rfl, h.2⟩

/-- A class is found by its `repr`. -/
theorem isReturnCompatible_plain {p : Plain} (hp : (plain p).OfClasses) {target : Ann}
    (htarget : target.OfClasses) :
    isReturnCompatible (plain p) target = true ↔ ∃ q, target = plain q ∧ p.repr = q.repr := by
  by_cases heq : (plain p).eq target = true
  · cases target with
    | union u => cases heq
    | plain q =>
      obtain rfl : p = q := of_decide_eq_true heq
      refine iff_of_true ?_ ⟨p, rfl, rfl⟩
      obtain ⟨hempty, hany, -⟩ := hp.not_marker
      unfold isReturnCompatible isReturnCompatibleBody
      rw [if_neg hempty, if_neg hempty, if_neg hany, if_pos heq]
  · rw [isReturnCompatible, body_of_classes _ hp htarget (Bool.eq_false_iff.mpr heq)]
    cases target with
    | plain q =>
      simp only [isUnionOrigin_plain, Bool.false_and, Bool.false_eq_true, if_false, isSameType,
        Ann.repr, plain.injEq, exists_eq_left']
      exact decide_eq_true_iff
    | union u =>
      have hrepr := repr_ne_union htarget hp.plain_cases
      simp [isSameType, Ann.repr, hrepr]

/-- One of the plain annotations is found by its `repr`. -/
theorem any_isReturnCompatible {ps : List Plain} (hps : ∀ p ∈ ps, p.isClass = true)
    {target : Ann} (htarget : target.OfClasses) :
    (ps.any fun p => isReturnCompatible (plain p) target) = true ↔
      ∃ q, target = plain q ∧ ∃ p ∈ ps, p.repr = q.repr := by
  rw [List.any_eq_true]
  constructor
  · rintro ⟨p, hp, hcompatible⟩
    obtain ⟨q, hq, hrepr⟩ :=
      (isReturnCompatible_plain (ofClasses_plain (hps p hp)) htarget).mp hcompatible
    exact ⟨q, hq, p, hp, hrepr⟩
  · rintro ⟨q, hq, p, hp, hrepr⟩
    exact ⟨p, hp, (isReturnCompatible_plain (ofClasses_plain (hps p hp)) htarget).mpr
      ⟨q, hq, hrepr⟩⟩

/-- What the code finds of a target that the base does not restate: a single class, and `NoneType`
if the base has it. -/
def Found (base target : Ann) : Prop :=
  ∃ m, target.inners = [m] ∧ (.noneType ∈ target.members → .noneType ∈ base.members) ∧
    ∃ n ∈ base.inners, n.repr = m.repr

theorem Ann.OfClasses.isClass_of_mem_inners {a : Ann} (h : a.OfClasses) {p : Plain}
    (hp : p ∈ a.inners) : p.isClass = true ∧ p ≠ .noneType := by
  rw [inners, List.mem_filter, decide_eq_true_eq] at hp
  exact ⟨h p hp.1, hp.2⟩

theorem Union.inners_of_not_mem {u : Union} (h : .noneType ∉ u.args) :
    (Ann.union u).inners = u.args := by
  refine List.filter_eq_self.mpr fun p hp => ?_
  rw [decide_eq_true_eq]
  rintro rfl
  exact h hp

/-- Where the target is no optional union, it is found if it is a class of the base. -/
theorem exists_plain_iff {base target : Ann} (hbase : base.OfClasses)
    (htarget : target.OfClasses)
    (hplain : target.isOptional = false) :
    (∃ q, target = plain q ∧ ∃ p ∈ base.inners, p.repr = q.repr) ↔ Found base target := by
  constructor
  · rintro ⟨q, rfl, p, hp, hrepr⟩
    obtain ⟨hclass, hne⟩ := hbase.isClass_of_mem_inners hp
    cases p with
    | cls c =>
      rcases htarget.plain_cases with hq | rfl
      · cases q with
        | noneType => exact absurd hrepr (cls_repr_ne c).2
        | cls d => exact ⟨.cls d, rfl, by simp [members], .cls c, hp, hrepr⟩
        | _ => cases hq
      · exact absurd hrepr (cls_repr_ne c).1
    | noneType => exact absurd rfl hne
    | _ => cases hclass
  · rintro ⟨m, hinners, -, p, hp, hrepr⟩
    cases target with
    | plain q =>
      refine ⟨q, rfl, p, hp, ?_⟩
      cases q with
      | none => cases hinners
      | noneType => cases hinners
      | _ =>
        obtain rfl := (List.cons.inj hinners).1
        exact hrepr
    | union u =>
      have hnot : Plain.noneType ∉ u.args := by
        intro hmem
        rw [isOptional, isUnionOrigin_union, Bool.true_and] at hplain
        exact absurd hmem (of_decide_eq_false hplain)
      have htwo := u.two
      rw [← u.inners_of_not_mem hnot, hinners] at htwo
      exact absurd htwo (by simp)

theorem not_found_of_optional {base target : Ann}
    (hoptional : .noneType ∈ target.members) (hbase : .noneType ∉ base.members) :
    ¬ Found base target :=
  fun ⟨_, _, hnone, _⟩ => hbase (hnone hoptional)

/-- No single class is a union of several. -/
theorem unionOf_ne_plain {ps : List Plain} (hps : ∀ p ∈ ps, p.isClass = true) (hnodup : ps.Nodup)
    (htwo : 2 ≤ ps.length) (origin : UnionOrigin) (q : Plain) :
    unionOf origin ps ≠ plain q := by
  rcases ps with _ | ⟨a, _ | ⟨b, rest⟩⟩
  · simp at htwo
  · simp at htwo
  · intro h
    have hmem : ∀ p ∈ a :: b :: rest, p ∈ (plain q).members := by
      intro p hp
      rw [← h, mem_members_unionOf origin (List.cons_ne_nil _ _), List.mem_map]
      refine ⟨p, hp, ?_⟩
      have hclass := hps p hp
      cases p <;> first | rfl | cases hclass
    obtain ⟨r, hr⟩ : ∃ r, (plain q).members = [r] := by
      cases q <;> exact ⟨_, rfl⟩
    rw [hr] at hmem
    have ha := List.mem_singleton.mp (hmem a (by simp))
    have hb := List.mem_singleton.mp (hmem b (by simp))
    rw [ha, hb] at hnodup
    simp at hnodup

theorem ofClasses_unionOf {ps : List Plain} (hps : ∀ p ∈ ps, p.isClass = true) (hne : ps ≠ [])
    (origin : UnionOrigin) : (unionOf origin ps).OfClasses := by
  intro p hp
  rw [mem_members_unionOf origin hne, List.mem_map] at hp
  obtain ⟨q, hq, rfl⟩ := hp
  have hclass := hps q hq
  cases q <;> first | rfl | cases hclass

theorem ofClasses_targetInner {ps : List Plain} (hps : ∀ p ∈ ps, p.isClass = true)
    (hne : ps ≠ []) : (targetInner ps).OfClasses := by
  unfold targetInner
  split
  · obtain ⟨p, rest, rfl⟩ := List.exists_cons_of_ne_nil hne
    exact ofClasses_plain (hps p List.mem_cons_self)
  · exact ofClasses_unionOf hps hne _

/-- The members beside `NoneType` are one class, or make a union. -/
theorem targetInner_eq_plain_iff {ps : List Plain} (hps : ∀ p ∈ ps, p.isClass = true)
    (hnodup : ps.Nodup) (hne : ps ≠ []) (q : Plain) : targetInner ps = plain q ↔ ps = [q] := by
  unfold targetInner
  split
  · next hone =>
    obtain ⟨p, rfl⟩ := List.length_eq_one_iff.mp hone
    simp
  · next hone =>
    have hpos := List.length_pos_iff.mpr hne
    refine iff_of_false (unionOf_ne_plain hps hnodup (by omega) _ q) ?_
    rintro rfl
    exact hone rfl

/-- Only classes other than `NoneType` share their `repr`. -/
theorem eq_of_repr {p q : Plain} (hp : p.isClass = true ∨ p = .none)
    (hq : q.isClass = true ∨ q = .none) (hcls : ∀ c, p ≠ .cls c) (h : p.repr = q.repr) : p = q := by
  rcases hp with hp | rfl
  · cases p with
    | noneType =>
      rcases hq with hq | rfl
      · cases q with
        | noneType => rfl
        | cls d => exact absurd h.symm (cls_repr_ne d).2
        | _ => cases hq
      · exact absurd h (by decide)
    | cls c => exact absurd rfl (hcls c)
    | _ => cases hp
  · rcases hq with hq | rfl
    · cases q with
      | noneType => exact absurd h (by decide)
      | cls d => exact absurd h.symm (cls_repr_ne d).1
      | _ => cases hq
    · rfl

/-- A class, `NoneType` or `None` is compared by its `repr`. -/
theorem found_plain {p : Plain} (hp : (plain p).OfClasses) {target : Ann}
    (htarget : target.OfClasses) (hne : (plain p).eq target = false) :
    (∃ q, target = plain q ∧ p.repr = q.repr) ↔ Found (plain p) target := by
  by_cases hcls : ∃ c, p = .cls c
  · obtain ⟨c, rfl⟩ := hcls
    by_cases hoptional : target.isOptional = true
    · obtain ⟨v, rfl, hv⟩ := exists_union_of_isOptional hoptional
      refine iff_of_false (by simp) (not_found_of_optional hv ?_)
      simp [members]
    · have hinners : (plain (.cls c)).inners = [.cls c] := rfl
      rw [← exists_plain_iff hp htarget (Bool.eq_false_iff.mpr hoptional), hinners]
      simp
  · have hnot : ∀ c, p ≠ .cls c := fun c hc => hcls ⟨c, hc⟩
    have hinners : (plain p).inners = [] := by
      rcases hp.plain_cases with hclass | rfl
      · cases p with
        | noneType => rfl
        | cls c => exact absurd rfl (hnot c)
        | _ => cases hclass
      · rfl
    refine iff_of_false ?_ ?_
    · rintro ⟨q, rfl, hrepr⟩
      exact of_decide_eq_false hne (eq_of_repr hp.plain_cases htarget.plain_cases hnot hrepr)
    · rintro ⟨m, -, -, n, hn, -⟩
      rw [hinners] at hn
      exact List.not_mem_nil hn

theorem Union.inners_ne_nil (u : Union) : (Ann.union u).inners ≠ [] := by
  obtain ⟨p, q, rest, hargs⟩ := u.exists_args
  intro h
  have hall : ∀ r ∈ u.args, r = .noneType := by
    intro r hr
    by_contra hne
    have hmem : r ∈ (Ann.union u).inners := List.mem_filter.mpr ⟨hr, decide_eq_true hne⟩
    rw [h] at hmem
    exact List.not_mem_nil hmem
  have hnodup := u.nodup
  rw [hargs] at hall hnodup
  rw [hall p (by simp), hall q (by simp)] at hnodup
  simp at hnodup

/-- The members of a union are compared one at a time. -/
theorem isReturnCompatible_union {u : Union} (hu : (Ann.union u).OfClasses) {target : Ann}
    (htarget : target.OfClasses) (hne : (Ann.union u).eq target = false) :
    isReturnCompatible (.union u) target =
      if .noneType ∈ u.args then
        if target.isOptional then
          (Ann.union u).inners.any fun baseInner =>
            isReturnCompatible (plain baseInner)
              (targetInner (target.getArgs.filter (· ≠ .noneType)))
        else (Ann.union u).inners.any fun baseInner => isReturnCompatible (plain baseInner) target
      else u.args.any fun opt => isReturnCompatible (plain opt) target := by
  rw [isReturnCompatible_eq, body_of_classes _ hu htarget hne, isUnionOrigin_union,
    Bool.true_and, Bool.not_true, Bool.and_false, if_neg Bool.false_ne_true, if_pos rfl]
  simp only [decide_eq_true_eq]
  rfl

/-- What the base does not restate is compatible if it is found. -/
theorem isReturnCompatible_iff_found {base target : Ann} (hbase : base.OfClasses)
    (htarget : target.OfClasses) (hne : base.eq target = false) :
    isReturnCompatible base target = true ↔ Found base target := by
  cases base with
  | plain p => rw [isReturnCompatible_plain hbase htarget, found_plain hbase htarget hne]
  | union u =>
    have hinners : ∀ p ∈ (Ann.union u).inners, p.isClass = true := fun p hp =>
      (hbase.isClass_of_mem_inners hp).1
    rw [isReturnCompatible_union hbase htarget hne]
    by_cases hun : .noneType ∈ u.args
    · rw [if_pos hun]
      by_cases hoptional : target.isOptional = true
      · rw [if_pos hoptional]
        obtain ⟨v, rfl, -⟩ := exists_union_of_isOptional hoptional
        have hvinners : ∀ p ∈ (Ann.union v).inners, p.isClass = true := fun p hp =>
          (htarget.isClass_of_mem_inners hp).1
        have hnodup : (Ann.union v).inners.Nodup := v.nodup.filter _
        show ((Ann.union u).inners.any fun baseInner =>
          isReturnCompatible (plain baseInner) (targetInner (Ann.union v).inners)) = true ↔ _
        rw [any_isReturnCompatible hinners (ofClasses_targetInner hvinners v.inners_ne_nil)]
        simp only [targetInner_eq_plain_iff hvinners hnodup v.inners_ne_nil]
        exact exists_congr fun m => and_congr_right fun _ =>
          ⟨fun hfound => ⟨fun _ => hun, hfound⟩, And.right⟩
      · rw [if_neg hoptional, any_isReturnCompatible hinners htarget,
          exists_plain_iff hbase htarget (Bool.eq_false_iff.mpr hoptional)]
    · rw [if_neg hun, ← u.inners_of_not_mem hun, any_isReturnCompatible hinners htarget]
      by_cases hoptional : target.isOptional = true
      · obtain ⟨v, rfl, hv⟩ := exists_union_of_isOptional hoptional
        exact iff_of_false (by simp) (not_found_of_optional hv hun)
      · exact exists_plain_iff hbase htarget (Bool.eq_false_iff.mpr hoptional)

/-! ## Where the answer is right -/

/-- The target is narrower, and not the base restated, but the code does not look for its shape:
it is only `None`, or it has several classes beside it. -/
structure Missed (base target : Ann) : Prop where
  narrower : ∀ m ∈ target.members, m ∈ base.members
  not_restated : base.eq target = false
  shape : target.inners.length ≠ 1

/-- The target's only class beside `NoneType` is none of the base, but it has the `repr` of one. -/
def Confused (base target : Ann) : Prop :=
  ∃ m, target.inners = [m] ∧ m ∉ base.members ∧
    (.noneType ∈ target.members → .noneType ∈ base.members) ∧ ∃ n ∈ base.inners, n.repr = m.repr

theorem mem_members_of_eq {base target : Ann} (h : base.eq target = true) {m : Plain}
    (hm : m ∈ target.members) : m ∈ base.members := by
  cases base with
  | plain p =>
    cases target with
    | plain q =>
      obtain rfl : p = q := of_decide_eq_true h
      exact hm
    | union v => cases h
  | union u =>
    cases target with
    | plain q => cases h
    | union v => exact (of_decide_eq_true h).2 hm

theorem isReturnCompatible_of_eq {base target : Ann} (hbase : base.OfClasses)
    (htarget : target.OfClasses) (h : base.eq target = true) :
    isReturnCompatible base target = true := by
  obtain ⟨hempty, hany, -⟩ := hbase.not_marker
  unfold isReturnCompatible isReturnCompatibleBody
  rw [if_neg hempty, if_neg htarget.not_marker.1, if_neg hany, if_pos h]

/-- The members are `NoneType` and those beside it. -/
theorem eq_noneType_or_mem_inners {a : Ann} {m : Plain} (hm : m ∈ a.members) :
    m = .noneType ∨ m ∈ a.inners := by
  by_cases h : m = .noneType
  · exact .inl h
  · exact .inr (List.mem_filter.mpr ⟨hm, decide_eq_true h⟩)

/-- What is found is narrower, unless a class is taken for another. -/
theorem Found.subset {base target : Ann} (h : Found base target)
    (hconfused : ¬ Confused base target) : ∀ m ∈ target.members, m ∈ base.members := by
  obtain ⟨m, hinners, hnone, hfound⟩ := h
  have hmem : m ∈ base.members := by
    by_contra hm
    exact hconfused ⟨m, hinners, hm, hnone, hfound⟩
  intro m' hm'
  rcases eq_noneType_or_mem_inners hm' with rfl | hinner
  · exact hnone hm'
  · rw [hinners] at hinner
    obtain rfl := List.mem_singleton.mp hinner
    exact hmem

/-- What is narrower is found, if it has one class beside `NoneType`. -/
theorem found_of_subset {base target : Ann}
    (h : ∀ m ∈ target.members, m ∈ base.members) (hlength : target.inners.length = 1) :
    Found base target := by
  obtain ⟨m, hinners⟩ := List.length_eq_one_iff.mp hlength
  have hm : m ∈ target.inners := by
    rw [hinners]
    exact List.mem_cons_self
  obtain ⟨hmember, hne⟩ := List.mem_filter.mp hm
  exact ⟨m, hinners, fun hnone => h _ hnone, m, List.mem_filter.mpr ⟨h m hmember, hne⟩, rfl⟩

/-- The answer is that the target has no further members, unless it is missed or confused. -/
theorem isReturnCompatible_members_iff {base target : Ann} (hbase : base.OfClasses)
    (htarget : target.OfClasses) :
    (isReturnCompatible base target = true ↔ ∀ m ∈ target.members, m ∈ base.members) ↔
      ¬ Missed base target ∧ ¬ Confused base target := by
  by_cases heq : base.eq target = true
  · have hsubset : ∀ m ∈ target.members, m ∈ base.members := fun m hm => mem_members_of_eq heq hm
    refine iff_of_true (iff_of_true (isReturnCompatible_of_eq hbase htarget heq) hsubset) ⟨?_, ?_⟩
    · intro hmissed
      exact absurd heq (Bool.eq_false_iff.mp hmissed.not_restated)
    · rintro ⟨m, hinners, hm, -⟩
      have hmem : m ∈ target.inners := by
        rw [hinners]
        exact List.mem_cons_self
      exact hm (hsubset m (List.mem_filter.mp hmem).1)
  · have hne : base.eq target = false := Bool.eq_false_iff.mpr heq
    rw [isReturnCompatible_iff_found hbase htarget hne]
    constructor
    · intro h
      refine ⟨fun hmissed => ?_, ?_⟩
      · obtain ⟨m, hinners, -⟩ := h.mpr hmissed.narrower
        exact hmissed.shape (by rw [hinners]; rfl)
      · rintro ⟨m, hinners, hm, hnone, hfound⟩
        have hmem : m ∈ target.inners := by
          rw [hinners]
          exact List.mem_cons_self
        exact hm (h.mp ⟨m, hinners, hnone, hfound⟩ m (List.mem_filter.mp hmem).1)
    · rintro ⟨hmissed, hconfused⟩
      refine ⟨fun hfound => hfound.subset hconfused, fun hsubset => ?_⟩
      refine found_of_subset hsubset ?_
      by_contra hlength
      exact hmissed ⟨hsubset, hne, hlength⟩

/-- However the two annotations are written, the answer is that the target is no wider, unless what
they evaluate to is missed or confused. -/
theorem isReturnCompatible_exact_iff {baseExpr targetExpr : Expr} {base target : Ann}
    (hbase : baseExpr.evaluate = some base) (htarget : targetExpr.evaluate = some target) :
    (isReturnCompatible base target = true ↔ ∀ m ∈ targetExpr.classes, m ∈ baseExpr.classes) ↔
      ¬ Missed base target ∧ ¬ Confused base target := by
  have hmembers : (∀ m ∈ targetExpr.classes, m ∈ baseExpr.classes) ↔
      ∀ m ∈ target.members, m ∈ base.members := by
    simp only [Expr.mem_members_of_evaluate hbase, Expr.mem_members_of_evaluate htarget]
  rw [hmembers]
  exact isReturnCompatible_members_iff (Expr.ofClasses_of_evaluate hbase)
    (Expr.ofClasses_of_evaluate htarget)

def int : Class := ⟨0, "int", ⟨'i', ['n', 't'], rfl, by decide⟩, by decide⟩

def str : Class := ⟨1, "str", ⟨'s', ['t', 'r'], rfl, by decide⟩, by decide⟩

def bytes : Class := ⟨2, "bytes", ⟨'b', ['y', 't', 'e', 's'], rfl, by decide⟩, by decide⟩

/-- `int` for `Union[int, str] | None`. -/
theorem isReturnCompatible_exact_iff_int :
    let base : Expr := .or (.union (.cls int) (.cls str)) .none
    let found : Ann := unionOf .union [.cls int, .cls str, .noneType]
    (isReturnCompatible found (plain (.cls int)) = true ↔
      ∀ m ∈ (Expr.cls int).classes, m ∈ base.classes) ↔
      ¬ Missed found (plain (.cls int)) ∧ ¬ Confused found (plain (.cls int)) := by
  intro base found
  have hbase : base.evaluate = some found := by decide
  exact isReturnCompatible_exact_iff hbase (show (Expr.cls int).evaluate = some _ from rfl)

/-- Two of three classes are a narrower return type. -/
theorem not_narrower_accepted :
    let base : Expr := .union (.cls int) (.union (.cls str) (.cls bytes))
    let target : Expr := .union (.cls int) (.cls str)
    base.evaluate = some (unionOf .union [.cls int, .cls str, .cls bytes]) ∧
      target.evaluate = some (unionOf .union [.cls int, .cls str]) ∧
      ¬ (isReturnCompatible (unionOf .union [.cls int, .cls str, .cls bytes])
            (unionOf .union [.cls int, .cls str]) = true ↔
          ∀ m ∈ target.classes, m ∈ base.classes) := by
  decide

end ApiTemplate.StaticAnalys
