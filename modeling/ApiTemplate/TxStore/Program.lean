import Mathlib.Tactic.Common

/-!
# Programs over statements

A program issues statements `s : S` one at a time, gets the answer of each one (`R s`, or an error
raised by it) and ends with a result or an error. `Program.run` interprets a program with a state
transformer per statement; the same program can be given to a scheduler that interleaves it with
others. `onExit` is the `finally` of the language: its handler sees how the body ended.
-/

namespace TxStore

/-- A program over the statements `S` with answers `R`, errors `ε` and result `α`. -/
inductive Program (S : Type) (R : S → Type) (ε α : Type) : Type
  | done (r : Except ε α)
  | step (s : S) (k : Except ε (R s) → Program S R ε α)

namespace Program

variable {S : Type} {R : S → Type} {ε α β γ W : Type}

/-- Continue with `f` on the way the program ended, normally or by an error. -/
def onExit : Program S R ε α → (Except ε α → Program S R ε β) → Program S R ε β
  | .done r, f => f r
  | .step s k, f => .step s fun r => (k r).onExit f

/-- Raise an error. -/
def raise (e : ε) : Program S R ε α := .done (.error e)

/-- Issue one statement; an error it raises is raised. -/
def lift (s : S) : Program S R ε (R s) := .step s .done

/-- A pure computation that may raise. -/
def ofExcept (r : Except ε α) : Program S R ε α := .done r

instance : Monad (Program S R ε) where
  pure a := .done (.ok a)
  bind p f := p.onExit fun
    | .ok a => f a
    | .error e => .done (.error e)

@[simp] theorem pure_eq (a : α) : (pure a : Program S R ε α) = .done (.ok a) := rfl

@[simp] theorem done_ok_bind (a : α) (f : α → Program S R ε β) :
    ((.done (.ok a) : Program S R ε α) >>= f) = f a := rfl

@[simp] theorem done_error_bind (e : ε) (f : α → Program S R ε β) :
    ((.done (.error e) : Program S R ε α) >>= f) = .done (.error e) := rfl

@[simp] theorem step_bind (s : S) (k : Except ε (R s) → Program S R ε α)
    (f : α → Program S R ε β) : (step s k >>= f) = .step s fun r => k r >>= f := rfl

@[simp] theorem done_onExit (r : Except ε α) (f : Except ε α → Program S R ε β) :
    (done r : Program S R ε α).onExit f = f r := rfl

@[simp] theorem step_onExit (s : S) (k : Except ε (R s) → Program S R ε α)
    (f : Except ε α → Program S R ε β) :
    (step s k).onExit f = .step s fun r => (k r).onExit f := rfl

/-! ## Sequential interpretation -/

/-- Interpret a program, giving every statement its effect on the state. -/
def run (exec : (s : S) → W → Except ε (R s) × W) : Program S R ε α → W → Except ε α × W
  | .done r, w => (r, w)
  | .step s k, w => (k (exec s w).1).run exec (exec s w).2

variable {exec : (s : S) → W → Except ε (R s) × W}

@[simp] theorem run_done (r : Except ε α) (w : W) :
    (done r : Program S R ε α).run exec w = (r, w) := rfl

@[simp] theorem run_step (s : S) (k : Except ε (R s) → Program S R ε α) (w : W) :
    (step s k).run exec w = (k (exec s w).1).run exec (exec s w).2 := rfl

/-- A program run to its exit handler. -/
theorem run_onExit (p : Program S R ε α) (f : Except ε α → Program S R ε β) (w : W) :
    (p.onExit f).run exec w = (f (p.run exec w).1).run exec (p.run exec w).2 := by
  induction p generalizing w with
  | done r => rfl
  | step s k ih => exact ih _ _

theorem run_bind (p : Program S R ε α) (f : α → Program S R ε β) (w : W) :
    (p >>= f).run exec w =
      match p.run exec w with
      | (.ok a, w') => (f a).run exec w'
      | (.error e, w') => (.error e, w') := by
  change (p.onExit _).run exec w = _
  rw [run_onExit]
  rcases p.run exec w with ⟨r, w'⟩
  cases r <;> rfl

theorem run_bind_ok {p : Program S R ε α} {w w' : W} {a : α} (h : p.run exec w = (.ok a, w'))
    (f : α → Program S R ε β) : (p >>= f).run exec w = (f a).run exec w' := by
  rw [run_bind, h]

theorem run_bind_error {p : Program S R ε α} {w w' : W} {e : ε}
    (h : p.run exec w = (.error e, w')) (f : α → Program S R ε β) :
    (p >>= f).run exec w = (.error e, w') := by
  rw [run_bind, h]

/-- **Invariant rule.** What every statement keeps, every program keeps. -/
theorem run_invariant {P : W → Prop} (h : ∀ s w, P w → P (exec s w).2) (p : Program S R ε α)
    {w : W} (hw : P w) : P (p.run exec w).2 := by
  induction p generalizing w with
  | done r => exact hw
  | step s k ih => exact ih _ (h s w hw)

/-! ## Programs of certain statements -/

/-- Whatever it is answered, the program issues only statements that satisfy `A`. -/
def Only (A : S → Prop) : Program S R ε α → Prop
  | .done _ => True
  | .step s k => A s ∧ ∀ r, (k r).Only A

variable {A B : S → Prop}

theorem Only.onExit {p : Program S R ε α} {f : Except ε α → Program S R ε β} (h : p.Only A)
    (hf : ∀ r, (f r).Only A) : (p.onExit f).Only A := by
  induction p with
  | done r => exact hf r
  | step s k ih => exact ⟨h.1, fun r => ih r (h.2 r)⟩

theorem Only.bind {p : Program S R ε α} {f : α → Program S R ε β} (h : p.Only A)
    (hf : ∀ a, (f a).Only A) : (p >>= f).Only A := by
  refine h.onExit fun r => ?_
  cases r with
  | ok a => exact hf a
  | error e => trivial

theorem Only.lift {s : S} (h : A s) : (Program.lift s : Program S R ε (R s)).Only A :=
  ⟨h, fun _ => trivial⟩

theorem Only.ofExcept {r : Except ε α} {f : α → Program S R ε β}
    (h : ∀ a, r = .ok a → (f a).Only A) : (Program.ofExcept r >>= f).Only A := by
  cases r with
  | ok a => exact h a rfl
  | error e => trivial

theorem Only.mono (himp : ∀ s, A s → B s) {p : Program S R ε α} (h : p.Only A) : p.Only B := by
  induction p with
  | done r => trivial
  | step s k ih => exact ⟨himp s h.1, fun r => ih r (h.2 r)⟩

/-- What every statement that satisfies `A` keeps, a program of such statements keeps. -/
theorem Only.run_invariant {P : W → Prop} (h : ∀ s w, A s → P w → P (exec s w).2)
    {p : Program S R ε α} (hp : p.Only A) {w : W} (hw : P w) : P (p.run exec w).2 := by
  induction p generalizing w with
  | done r => exact hw
  | step s k ih => exact ih _ (hp.2 _) (h s w hp.1 hw)

end Program

end TxStore
