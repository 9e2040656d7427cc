import Mathlib.Tactic.Common

/-!
# Runs of a step function

A system is a partial step function `step : σ → α → Option σ`; `none` means that the action is not
enabled. `Reach step ok s s'` collects the runs from `s` to `s'` whose every action satisfies `ok`
in the state it is taken in. Safety is proved once per step (`Reach.invariant`). `runActions`
executes a fixed run.
-/

namespace TxStore

variable {σ α : Type} {step : σ → α → Option σ} {ok : σ → α → Prop}

/-- Some actions, each allowed by `ok` where it is taken, lead from `s` to the second state. -/
inductive Reach (step : σ → α → Option σ) (ok : σ → α → Prop) (s : σ) : σ → Prop
  | refl : Reach step ok s s
  | tail {s₁ s₂ : σ} {a : α} :
      Reach step ok s s₁ → ok s₁ a → step s₁ a = some s₂ → Reach step ok s s₂

/-- Runs without a condition on their actions. -/
abbrev Reachable (step : σ → α → Option σ) : σ → σ → Prop := Reach step fun _ _ => True

/-- Execute a list of actions, if each is allowed and enabled where it is taken. -/
def runActions (step : σ → α → Option σ) (ok : σ → α → Prop) [∀ s a, Decidable (ok s a)] :
    σ → List α → Option σ
  | s, [] => some s
  | s, a :: as => if ok s a then (step s a).bind fun s' => runActions step ok s' as else none

namespace Reach

/-- **Invariant rule.** A property of the first state that every allowed step keeps holds of
every state reached. -/
theorem invariant {P : σ → Prop} {s s' : σ} (h : Reach step ok s s') (h₀ : P s)
    (hstep : ∀ s₁ a s₂, P s₁ → ok s₁ a → step s₁ a = some s₂ → P s₂) : P s' := by
  induction h with
  | refl => exact h₀
  | tail _ hok hs ih => exact hstep _ _ _ ih hok hs

theorem trans {s₁ s₂ s₃ : σ} (h : Reach step ok s₁ s₂) (h' : Reach step ok s₂ s₃) :
    Reach step ok s₁ s₃ := by
  induction h' with
  | refl => exact h
  | tail _ hok hs ih => exact ih.tail hok hs

theorem imp {ok' : σ → α → Prop} {s s' : σ} (h : Reach step ok s s')
    (himp : ∀ s a, ok s a → ok' s a) : Reach step ok' s s' := by
  induction h with
  | refl => exact .refl
  | tail _ hok hs ih => exact ih.tail (himp _ _ hok) hs

theorem head {s s₁ s' : σ} {a : α} (hok : ok s a) (hs : step s a = some s₁)
    (h : Reach step ok s₁ s') : Reach step ok s s' :=
  (Reach.refl.tail hok hs).trans h

/-- An executed list of actions is a run. -/
theorem of_runActions [∀ s a, Decidable (ok s a)] {as : List α} {s s' : σ}
    (h : runActions step ok s as = some s') : Reach step ok s s' := by
  induction as generalizing s with
  | nil =>
    cases h
    exact .refl
  | cons a as ih =>
    unfold runActions at h
    split at h
    · rename_i hok
      obtain ⟨s₁, hs, hrun⟩ := Option.bind_eq_some_iff.mp h
      exact head hok hs (ih hrun)
    · cases h

end Reach

end TxStore
