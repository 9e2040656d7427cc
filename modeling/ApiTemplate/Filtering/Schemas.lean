import ApiTemplate.Filtering.Checks
import ApiTemplate.Filtering.Pipeline

/-!
# What the schemas return

The values that come out of the value schemas, and the errors that escape from them.
-/

namespace ApiTemplate.Filtering

open Fallible FilterValidator

/-! ## Elements -/

section

variable {schema : Item → Except PyError Item} {raws xs : List Item} {raw v : Value}

theorem schemaItems_cons_ok {r x : Item} (h : schema r = .ok x) :
    schemaItems schema (r :: raws) = (schemaItems schema raws).map (x :: ·) := by
  rw [schemaItems, h]

theorem schemaItems_cons_error {r : Item} {e : PyError} (h : schema r = .error e) :
    schemaItems schema (r :: raws) =
      if e.rejects then schemaItems schema raws >>= fun _ => .error e else .error e := by
  rw [schemaItems, h]

theorem schemaItems_eq_ok_iff : schemaItems schema raws = .ok xs ↔ raws.mapM schema = .ok xs := by
  induction raws generalizing xs with
  | nil => rfl
  | cons r raws ih =>
    rw [mapM_cons]
    cases hr : schema r with
    | ok x =>
      rw [schemaItems_cons_ok hr, map_eq_ok]
      simp only [ih]
      exact map_eq_ok.symm
    | error e =>
      rw [schemaItems_cons_error hr]
      refine iff_of_false ?_ nofun
      split
      · rw [bind_eq_ok]
        rintro ⟨_, -, h⟩
        cases h
      · nofun

/-- An error escapes from a tuple if and only if one escapes from an element. -/
theorem failsIn_schemaItems :
    FailsIn Rejects (schemaItems schema raws) ↔ ∀ r ∈ raws, FailsIn Rejects (schema r) := by
  induction raws with
  | nil => simp [schemaItems]
  | cons r raws ih =>
    rw [List.forall_mem_cons]
    cases hr : schema r with
    | ok x => simp [schemaItems_cons_ok hr, ih]
    | error e =>
      rw [schemaItems_cons_error hr]
      by_cases he : e.rejects = true
      · simp [he, failsIn_bind, ih]
      · simp [he]

theorem tuplePair_eq_ok_iff : tuplePair schema raw = .ok v ↔ ∃ a b x y,
    elements raw = some [a, b] ∧ schema a = .ok x ∧ schema b = .ok y ∧ v = .tuple [x, y] := by
  unfold tuplePair
  cases elements raw with
  | none => simp
  | some items =>
    simp only [bind_eq_ok, schemaItems_eq_ok_iff]
    constructor
    · rintro ⟨pair, hpair, h⟩
      split at h
      · rename_i hlength
        obtain ⟨a, b, rfl⟩ := List.length_eq_two.mp hlength
        simp only [List.take_succ_cons, List.take_zero, mapM_cons, bind_eq_ok, map_eq_ok] at hpair
        obtain ⟨x, hx, _, ⟨y, hy, _, hnil, rfl⟩, rfl⟩ := hpair
        obtain rfl : [] = _ := Except.ok.inj hnil
        exact ⟨a, b, x, y, rfl, hx, hy, (Except.ok.inj h).symm⟩
      · cases h
    · rintro ⟨a, b, x, y, ⟨⟩, hx, hy, rfl⟩
      refine ⟨[x, y], ?_, rfl⟩
      simp only [List.take_succ_cons, List.take_zero, mapM_cons, hx, hy]
      rfl

theorem failsIn_tuplePair : FailsIn Rejects (tuplePair schema raw) ↔
    ∀ items, elements raw = some items → ∀ r ∈ items.take 2, FailsIn Rejects (schema r) := by
  unfold tuplePair
  cases elements raw with
  | none => simp
  | some items =>
    simp only [Option.some.injEq, forall_eq', ← failsIn_schemaItems, failsIn_bind]
    refine and_iff_left fun pair _ => ?_
    split
    · exact failsIn_ok _
    · simp

theorem tupleVariable_eq_ok_iff : tupleVariable schema raw = .ok v ↔ ∃ items xs,
    elements raw = some items ∧ items.mapM schema = .ok xs ∧ v = .tuple xs := by
  unfold tupleVariable
  cases elements raw with
  | none => simp
  | some items =>
    simp only [map_eq_ok, schemaItems_eq_ok_iff, Option.some.injEq, exists_and_left,
      exists_eq_left']
    exact exists_congr fun xs => and_congr_right fun _ => eq_comm

theorem failsIn_tupleVariable :
    FailsIn Rejects (tupleVariable schema raw) ↔
      ∀ items, elements raw = some items → ∀ r ∈ items, FailsIn Rejects (schema r) := by
  unfold tupleVariable
  cases elements raw with
  | none => simp
  | some items => simp [← failsIn_schemaItems]

end

/-! ## The schema of an element -/

section

variable {env : Env} {spec : FilterSpec} {raw : Item}

theorem failsIn_inSchema {α : Type} {x : Except PyError α} :
    FailsIn Rejects (inSchema x) ↔ FailsIn Rejects x := by
  cases x with
  | ok a => exact iff_of_true (failsIn_ok a) (failsIn_ok a)
  | error e => cases e <;> simp [inSchema, Except.mapError]

theorem inSchema_eq_ok_iff {α : Type} {x : Except PyError α} {a : α} :
    inSchema x = .ok a ↔ x = .ok a := by
  cases x <;> simp [inSchema, Except.mapError]

/-- No error escapes from the conversion to UTC of a naive datetime that the schema returns for the
element. -/
def Zoned (env : Env) (spec : FilterSpec) (raw : Item) : Prop :=
  spec.baseType = .datetime → ∀ wall,
    env.schema .datetime (.item raw) = some (.scalar (.datetime wall none)) →
    FailsIn Rejects (env.localToUtc wall)

theorem failsIn_elementSchema :
    FailsIn Rejects (elementSchema env spec raw) ↔ Zoned env spec raw := by
  unfold elementSchema Zoned
  by_cases hbase : spec.baseType = .datetime
  · rw [hbase]
    cases env.schema .datetime (.item raw) with
    | none => simp
    | some x =>
      simp only [if_true, failsIn_inSchema, forall_const, Option.some.injEq]
      unfold setTimezone
      split
      · simp
      · rename_i hno
        exact iff_of_true (failsIn_ok x) fun wall h => absurd h (hno wall)
  · cases env.schema spec.baseType (.item raw) <;> simp [hbase]

theorem isInstance_elementSchema (henv : env.Typed) {x : Item}
    (h : elementSchema env spec raw = .ok x) : x.isInstance spec.baseType = true := by
  unfold elementSchema at h
  cases hy : env.schema spec.baseType (.item raw) with
  | none => simp [hy] at h
  | some y =>
    have hinst := henv _ _ _ hy
    simp only [hy] at h
    by_cases hbase : spec.baseType = .datetime
    · rw [if_pos hbase, inSchema_eq_ok_iff] at h
      rw [hbase] at hinst ⊢
      unfold setTimezone at h
      split at h
      · obtain ⟨utc, -, rfl⟩ := map_eq_ok.mp h
        rfl
      · rwa [← Except.ok.inj h]
    · rw [if_neg hbase] at h
      rwa [← Except.ok.inj h]

theorem nullable_eq_ok_iff {schema : Item → Except PyError Item} {x : Item} :
    nullable schema raw = .ok x ↔
      (raw = .none ∧ x = .none) ∨ (raw ≠ .none ∧ schema raw = .ok x) := by
  unfold nullable
  by_cases h : raw = .none <;> simp [h, eq_comm]

theorem failsIn_nullable {schema : Item → Except PyError Item} :
    FailsIn Rejects (nullable schema raw) ↔ (raw ≠ .none → FailsIn Rejects (schema raw)) := by
  unfold nullable
  by_cases h : raw = .none <;> simp [h]

end

/-! ## The pipeline -/

theorem pipeline_of_present {env : Env} {spec : FilterSpec} {raw : Value}
    (h : ¬ (spec.required = false ∧ raw = .none)) :
    pipeline env spec raw = valueSchema env spec raw >>= fun v =>
      inSchema (validate spec v) >>= fun _ => .ok v := if_neg h

theorem pipeline_eq_ok_iff {env : Env} {spec : FilterSpec} {raw v : Value}
    (h : ¬ (spec.required = false ∧ raw = .none)) :
    pipeline env spec raw = .ok v ↔
      valueSchema env spec raw = .ok v ∧ validate spec v = .ok () := by
  rw [pipeline_of_present h, bind_eq_ok]
  simp only [bind_eq_ok, inSchema_eq_ok_iff, Except.ok.injEq]
  constructor
  · rintro ⟨w, hw, ⟨⟩, hv, rfl⟩
    exact ⟨hw, hv⟩
  · rintro ⟨hw, hv⟩
    exact ⟨v, hw, (), hv, rfl⟩

theorem failsIn_pipeline {env : Env} {spec : FilterSpec} {raw : Value}
    (h : ¬ (spec.required = false ∧ raw = .none)) :
    FailsIn Rejects (pipeline env spec raw) ↔ FailsIn Rejects (valueSchema env spec raw) ∧
      ∀ v, valueSchema env spec raw = .ok v → FailsIn Rejects (validate spec v) := by
  rw [pipeline_of_present h, failsIn_bind]
  simp [failsIn_bind, failsIn_inSchema]

end ApiTemplate.Filtering
