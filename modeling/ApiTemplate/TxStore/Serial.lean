import ApiTemplate.TxStore.ReadCommitted
import ApiTemplate.TxStore.Sequential

/-!
# Serial orders

The programs of a system run one after another in some order (`serialResults`, `serialAfter`), the
orders that explain a concurrent run (`Sys.Serializable`), and what finding such an order takes when
all the programs share is a register: a `History` of the operations that took effect, to which a new
operation is added at its end or, if it leaves the register as it is, wherever the register held the
value it saw.
-/

namespace TxStore

/-! ## Programs one after another -/

namespace Db

variable {σ : Schema} {τ α β : Type}

/-- What programs return or raise when they run one after another. -/
def serialResults (progs : τ → Prog σ α) : Db σ → List τ → List (τ × Except σ.Error α)
  | _, [] => []
  | db, t :: ts => (t, db.result (progs t)) :: serialResults progs (db.after (progs t)) ts

/-- The content that programs leave when they run one after another. -/
def serialAfter (progs : τ → Prog σ α) : Db σ → List τ → Db σ
  | db, [] => db
  | db, t :: ts => serialAfter progs (db.after (progs t)) ts

theorem serialResults_append (progs : τ → Prog σ α) (db : Db σ) (ts ts' : List τ) :
    serialResults progs db (ts ++ ts') =
      serialResults progs db ts ++ serialResults progs (serialAfter progs db ts) ts' := by
  induction ts generalizing db with
  | nil => rfl
  | cons t ts ih => exact congrArg _ (ih _)

theorem serialAfter_append (progs : τ → Prog σ α) (db : Db σ) (ts ts' : List τ) :
    serialAfter progs db (ts ++ ts') = serialAfter progs (serialAfter progs db ts) ts' := by
  induction ts generalizing db with
  | nil => rfl
  | cons t ts ih => exact ih _

end Db

namespace Sys

variable {σ : Schema} {τ α : Type}

/-- What a process has returned or raised, once it has ended. -/
def result? (s : Sys σ τ α) (t : τ) : Option (Except σ.Error α) :=
  match (s.proc t).prog with
  | .done r => some r
  | .step _ _ => none

/-- The processes have the results of a serial execution of their programs in an order, and that
execution leaves the same as the committed rows, as far as `observe` tells. -/
structure SerialOrder {κ : Type} (observe : Db σ → κ) (db : Db σ) (progs : τ → Prog σ α)
    (s : Sys σ τ α) (order : List τ) : Prop where
  nodup : order.Nodup
  complete : ∀ t, t ∈ order
  results : ∀ e ∈ Db.serialResults progs db order, s.result? e.1 = some e.2
  observed : observe (Db.serialAfter progs db order) = observe s.store.base

/-- The processes behave as in some serial execution. -/
def Serializable {κ : Type} (observe : Db σ → κ) (db : Db σ) (progs : τ → Prog σ α)
    (s : Sys σ τ α) : Prop := ∃ order, SerialOrder observe db progs s order

end Sys

/-! ## Histories of a register -/

section History

variable {τ V R : Type} (answer : τ → V → R) (set : τ → V → V)

/-- Operations that answer as recorded, one after another, and take the register from the first to
the last value. -/
def History : V → List (τ × R) → V → Prop
  | v, [], v' => v = v'
  | v, (t, r) :: l, v' => answer t v = r ∧ History (set t v) l v'

/-- The register holds `x` at some point of the operations. -/
def Visits (x : V) : V → List (τ × R) → Prop
  | v, [] => v = x
  | v, (t, _) :: l => v = x ∨ Visits x (set t v) l

variable {answer set} {v v' x : V} {t : τ} {r : R} {l l' : List (τ × R)}

theorem History.visits (h : History answer set v l v') : Visits set v' v l := by
  induction l generalizing v with
  | nil => exact h
  | cons e l ih => exact Or.inr (ih h.2)

theorem Visits.append (h : Visits set x v l) : Visits set x v (l ++ l') := by
  induction l generalizing v with
  | nil =>
    cases l' with
    | nil => exact h
    | cons e l' => exact Or.inl h
  | cons e l ih =>
    rcases h with h | h
    · exact Or.inl h
    · exact Or.inr (ih h)

/-- A new operation at the end of a history. -/
theorem History.concat (h : History answer set v l v') :
    History answer set v (l ++ [(t, answer t v')]) (set t v') := by
  induction l generalizing v with
  | nil =>
    cases h
    exact ⟨rfl, rfl⟩
  | cons e l ih => exact ⟨h.1, ih h.2⟩

/-- **Insertion.** An operation that leaves the value it sees as it is can be put where the register
held that value. -/
theorem History.insert (h : History answer set v l v') (hx : Visits set x v l)
    (hset : set t x = x) :
    ∃ l', l'.Perm ((t, answer t x) :: l) ∧ History answer set v l' v' ∧
      ∀ y, Visits set y v l → Visits set y v l' := by
  induction l generalizing v with
  | nil =>
    cases hx
    cases h
    exact ⟨_, .refl _, ⟨rfl, hset⟩, fun y hy => Or.inl hy⟩
  | cons e l ih =>
    rcases hx with hx | hx
    · subst hx
      exact ⟨_, .refl _, ⟨rfl, by rwa [hset]⟩, fun y hy => Or.inr (by rwa [hset])⟩
    · obtain ⟨l', hperm, hl', hvisits⟩ := ih h.2 hx
      refine ⟨e :: l', (hperm.cons e).trans (.swap _ _ _), ⟨h.1, hl'⟩, fun y hy => ?_⟩
      rcases hy with hy | hy
      · exact Or.inl hy
      · exact Or.inr (hvisits y hy)

end History

/-- **Simulation.** Contents that follow the register along a history, operation by operation, give
the recorded results. `Rep l` may also speak of the operations `l` still to come. -/
theorem History.serial {σ : Schema} {τ α V : Type} {answer : τ → V → Except σ.Error α}
    {set : τ → V → V} (progs : τ → Prog σ α) (Rep : List (τ × Except σ.Error α) → Db σ → V → Prop)
    (hstep : ∀ t l c v, Rep ((t, answer t v) :: l) c v →
      c.result (progs t) = answer t v ∧ Rep l (c.after (progs t)) (set t v))
    {l : List (τ × Except σ.Error α)} {c : Db σ} {v v' : V} (h : History answer set v l v')
    (hc : Rep l c v) :
    Db.serialResults progs c (l.map Prod.fst) = l ∧
      Rep [] (Db.serialAfter progs c (l.map Prod.fst)) v' := by
  induction l generalizing c v with
  | nil =>
    cases h
    exact ⟨rfl, hc⟩
  | cons e l ih =>
    obtain ⟨t, r⟩ := e
    obtain ⟨rfl, hl⟩ := h
    obtain ⟨hresult, hafter⟩ := hstep t l c v hc
    obtain ⟨hresults, hrep⟩ := ih hl hafter
    refine ⟨?_, hrep⟩
    exact congrArg₂ List.cons (congrArg (Prod.mk t) hresult) hresults

/-! ## The rest of a unit of work -/

section Rest

variable {σ : Schema} {α : Type}

/-- Nothing is left to do but to end with `r`. -/
def Ending (r : Except σ.Error α) : Prog σ α → Prop
  | .done r' => r' = r
  | .step .commit k => Ending r (k (.ok ()))
  | .step .rollback k => Ending r (k (.ok ()))
  | _ => False

/-- What is left is to announce something, to commit and to end with `r`. -/
def Committing (r : Except σ.Error α) : Prog σ α → Prop
  | .step (.emit _) k => Committing r (k (.ok ()))
  | .step .commit k => Ending r (k (.ok ()))
  | _ => False

end Rest

end TxStore
