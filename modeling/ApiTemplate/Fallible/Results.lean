import Mathlib.Data.List.Basic
import Mathlib.Tactic.Common

/-!
# Results of fallible programs

What a program in `Except` returns and with which errors it fails, through `bind`, `map` and the
traversal of a list.
-/

namespace ApiTemplate.Fallible

variable {ε α β : Type}

/-! ## Success -/

theorem bind_eq_ok {x : Except ε α} {f : α → Except ε β} {b : β} :
    (x >>= f) = .ok b ↔ ∃ a, x = .ok a ∧ f a = .ok b := by
  cases x <;> simp [bind, Except.bind]

theorem map_eq_ok {x : Except ε α} {f : α → β} {b : β} :
    x.map f = .ok b ↔ ∃ a, x = .ok a ∧ f a = b := by
  cases x <;> simp [Except.map]

theorem mapError_eq_ok {ε' : Type} {x : Except ε α} {f : ε → ε'} {a : α} :
    x.mapError f = .ok a ↔ x = .ok a := by
  cases x <;> simp [Except.mapError]

theorem mapM_cons (f : α → Except ε β) (a : α) (as : List α) :
    (a :: as).mapM f = f a >>= fun b => (as.mapM f).map (b :: ·) := by
  rw [List.mapM_cons]
  cases f a with
  | error e => rfl
  | ok b => cases as.mapM f <;> rfl

theorem mapM_append (f : α → Except ε β) (as as' : List α) :
    (as ++ as').mapM f = as.mapM f >>= fun bs => (as'.mapM f).map (bs ++ ·) := by
  rw [List.mapM_append]
  cases as.mapM f with
  | error e => rfl
  | ok bs => cases as'.mapM f <;> rfl

theorem mapM_ok {f : α → Except ε β} {g : α → β} {as : List α} (h : ∀ a ∈ as, f a = .ok (g a)) :
    as.mapM f = .ok (as.map g) := by
  induction as with
  | nil => rfl
  | cons a as ih =>
    rw [mapM_cons, h a (by simp), ih fun b hb => h b (by simp [hb])]
    rfl

/-- What a traversal returns comes from an element. -/
theorem exists_of_mem_mapM {f : α → Except ε β} {as : List α} {bs : List β}
    (h : as.mapM f = .ok bs) {b : β} (hb : b ∈ bs) : ∃ a ∈ as, f a = .ok b := by
  induction as generalizing bs with
  | nil =>
    obtain rfl : [] = bs := by injection h
    exact absurd hb (List.not_mem_nil)
  | cons a as ih =>
    rw [mapM_cons, bind_eq_ok] at h
    obtain ⟨c, hc, h⟩ := h
    obtain ⟨cs, hcs, rfl⟩ := map_eq_ok.mp h
    rcases List.mem_cons.mp hb with rfl | hb
    · exact ⟨a, by simp, hc⟩
    · obtain ⟨a', ha', hb⟩ := ih hcs hb
      exact ⟨a', by simp [ha'], hb⟩

/-- A traversal succeeds if every element does. -/
theorem exists_mapM_ok_iff {f : α → Except ε β} {as : List α} :
    (∃ bs, as.mapM f = .ok bs) ↔ ∀ a ∈ as, ∃ b, f a = .ok b := by
  induction as with
  | nil => exact iff_of_true ⟨[], rfl⟩ (by simp)
  | cons a as ih =>
    simp only [mapM_cons, bind_eq_ok, map_eq_ok, List.forall_mem_cons, ← ih]
    constructor
    · rintro ⟨_, b, hb, bs, hbs, rfl⟩
      exact ⟨⟨b, hb⟩, bs, hbs⟩
    · rintro ⟨⟨b, hb⟩, bs, hbs⟩
      exact ⟨b :: bs, b, hb, bs, hbs, rfl⟩

/-! ## Failure -/

/-- The program fails with no errors but those of `P`. -/
def FailsIn (P : ε → Prop) (x : Except ε α) : Prop := ∀ e, x = .error e → P e

variable {P : ε → Prop}

@[simp] theorem failsIn_ok (a : α) : FailsIn P (.ok a : Except ε α) := nofun

@[simp] theorem failsIn_pure (a : α) : FailsIn P (pure a : Except ε α) := nofun

@[simp] theorem failsIn_error {e : ε} : FailsIn P (.error e : Except ε α) ↔ P e := by
  simp [FailsIn]

/-- A sequence fails in `P` if both of its parts do. -/
theorem failsIn_bind {x : Except ε α} {f : α → Except ε β} :
    FailsIn P (x >>= f) ↔ FailsIn P x ∧ ∀ a, x = .ok a → FailsIn P (f a) := by
  cases x <;> simp [bind, Except.bind]

@[simp] theorem failsIn_map {x : Except ε α} {f : α → β} : FailsIn P (x.map f) ↔ FailsIn P x := by
  cases x <;> simp [Except.map]

/-! ## Programs that fail outside of a set of errors -/

/-- The program succeeds if `C` holds, and otherwise fails outside of `P`. -/
structure SucceedsIff (P : ε → Prop) (C : Prop) (x : Except ε α) : Prop where
  ok : C → ∃ a, x = .ok a
  error : ¬ C → ∃ e, x = .error e ∧ ¬ P e

namespace SucceedsIff

variable {C D : Prop} {x : Except ε α}

theorem of_ok {a : α} (hC : C) (h : x = .ok a) : SucceedsIff P C x :=
  ⟨fun _ => ⟨a, h⟩, fun hno => absurd hC hno⟩

theorem of_error {e : ε} (hC : ¬ C) (h : x = .error e) (he : ¬ P e) : SucceedsIff P C x :=
  ⟨fun hyes => absurd hyes hC, fun _ => ⟨e, h, he⟩⟩

theorem congr (h : SucceedsIff P C x) (hCD : C ↔ D) : SucceedsIff P D x :=
  ⟨fun hD => h.ok (hCD.mpr hD), fun hno => h.error fun hC => hno (hCD.mp hC)⟩

theorem map (h : SucceedsIff P C x) (f : α → β) : SucceedsIff P C (x.map f) where
  ok hC := by
    obtain ⟨a, rfl⟩ := h.ok hC
    exact ⟨f a, rfl⟩
  error hno := by
    obtain ⟨e, rfl, he⟩ := h.error hno
    exact ⟨e, rfl, he⟩

theorem bind {f : α → Except ε β} (h : SucceedsIff P C x)
    (hf : ∀ a, x = .ok a → SucceedsIff P D (f a)) : SucceedsIff P (C ∧ D) (x >>= f) := by
  by_cases hC : C
  · obtain ⟨a, ha⟩ := h.ok hC
    have hbind : (x >>= f) = f a := by rw [ha]; rfl
    rw [hbind]
    exact (hf a ha).congr (and_iff_right hC).symm
  · obtain ⟨e, he, hP⟩ := h.error hC
    exact of_error (fun hCD => hC hCD.1) (by rw [he]; rfl) hP

end SucceedsIff

end ApiTemplate.Fallible
