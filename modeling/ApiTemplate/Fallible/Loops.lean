import Mathlib.Data.Nat.Notation
import Mathlib.Tactic.Common

/-!
# Loops of fallible programs

`while` loops whose body may raise. A loop is run with fuel; it returns if some fuel suffices. Two
rules decide this: a measure that falls in every pass, and an invariant under which the guard holds
for ever.
-/

namespace Loops

variable {ε σ : Type}

structure Loop (ε σ : Type) where
  guard : σ → Bool
  body : σ → Except ε σ

namespace Loop

variable (l : Loop ε σ)

/-- The loop, none where the fuel runs out. -/
def run : ℕ → σ → Option (Except ε σ)
  | 0, _ => none
  | fuel + 1, s =>
    if l.guard s then
      match l.body s with
      | .ok s' => run fuel s'
      | .error e => some (.error e)
    else some (.ok s)

/-- The loop ends in a state, or with an error. -/
def Returns (s : σ) (r : Except ε σ) : Prop := ∃ fuel, l.run fuel s = some r

variable {l} {s s' : σ} {r : Except ε σ}

/-! ## One pass -/

theorem run_of_guard_false (h : l.guard s = false) (fuel : ℕ) :
    l.run (fuel + 1) s = some (.ok s) := by
  rw [run, h]
  rfl

theorem run_of_ok (h : l.guard s = true) (hbody : l.body s = .ok s') (fuel : ℕ) :
    l.run (fuel + 1) s = l.run fuel s' := by
  rw [run, if_pos h, hbody]

theorem run_of_error {e : ε} (h : l.guard s = true) (hbody : l.body s = .error e) (fuel : ℕ) :
    l.run (fuel + 1) s = some (.error e) := by
  rw [run, if_pos h, hbody]

theorem returns_of_guard_false (h : l.guard s = false) : l.Returns s (.ok s) :=
  ⟨1, run_of_guard_false h 0⟩

theorem returns_of_error {e : ε} (h : l.guard s = true) (hbody : l.body s = .error e) :
    l.Returns s (.error e) :=
  ⟨1, run_of_error h hbody 0⟩

theorem returns_of_ok (h : l.guard s = true) (hbody : l.body s = .ok s') (hrest : l.Returns s' r) :
    l.Returns s r := by
  obtain ⟨fuel, hfuel⟩ := hrest
  exact ⟨fuel + 1, (run_of_ok h hbody fuel).trans hfuel⟩

/-! ## Rules -/

/-- A loop whose passes all keep `Q` and lower a measure returns. `Q s r` says that `r` is what the
loop has to return from `s`. -/
theorem returns_of_measure {Q : σ → Except ε σ → Prop} (μ : σ → ℕ)
    (hdone : ∀ s r, Q s r → l.guard s = false → r = .ok s)
    (hstep : ∀ s r, Q s r → l.guard s = true →
      (∃ e, l.body s = .error e ∧ r = .error e) ∨ ∃ s', l.body s = .ok s' ∧ Q s' r ∧ μ s' < μ s)
    (h : Q s r) : l.Returns s r := by
  induction hn : μ s using Nat.strongRecOn generalizing s with
  | ind n ih =>
    cases hguard : l.guard s with
    | false =>
      rw [hdone s r h hguard]
      exact returns_of_guard_false hguard
    | true =>
      obtain ⟨e, hbody, rfl⟩ | ⟨s', hbody, hs', hlt⟩ := hstep s r h hguard
      · exact returns_of_error hguard hbody
      · exact returns_of_ok hguard hbody (ih _ (hn ▸ hlt) hs' rfl)

/-- A loop that stays where its guard holds never returns. -/
theorem not_returns_of_invariant {P : σ → Prop}
    (hstep : ∀ s, P s → l.guard s = true ∧ ∃ s', l.body s = .ok s' ∧ P s') (h : P s) :
    ¬ l.Returns s r := by
  rintro ⟨fuel, hfuel⟩
  induction fuel generalizing s with
  | zero => cases hfuel
  | succ fuel ih =>
    obtain ⟨hguard, s', hbody, hs'⟩ := hstep s h
    rw [run_of_ok hguard hbody] at hfuel
    exact ih hs' hfuel

end Loop

end Loops
