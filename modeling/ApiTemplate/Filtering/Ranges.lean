import Mathlib.Order.Compare
import Mathlib.Tactic.NormNum
import ApiTemplate.Filtering.Compiler
import ApiTemplate.Filtering.Schemas
import ApiTemplate.Filtering.Validation
import ApiTemplate.Stream.Lines

/-!
# Range filters

Which texts a range filter accepts, and which rows the predicate compiled from them selects, over a
base type whose order comparisons go by a linear order.
-/

namespace ApiTemplate.Filtering

open Fallible FilterValidator

/-! ## Totally ordered values -/

section

variable {κ : Type} [LinearOrder κ]

/-- Among the values of `S`, the order comparisons go by a key in a linear order. -/
def TotallyOrdered (S : Item → Prop) (key : Item → κ) : Prop :=
  ∀ a b, S a → S b → ∀ op : CompareOp, a.compare op b = .ok (op.test (compare (key a) (key b)))

/-- A trimmed part of a text: an empty one gives no endpoint, another what the base type parses. -/
def Endpoint (env : Env) (spec : FilterSpec) (part : List Char) (x : Item) : Prop :=
  let text := Identity.strip (String.ofList part)
  (text = "" ∧ x = .none) ∨
    (text ≠ "" ∧ elementSchema env spec (.scalar (.str text)) = .ok x)

variable {S : Item → Prop} {key : Item → κ} {a b : κ}

theorem TotallyOrdered.ne_none (horder : TotallyOrdered S key) {x : Item} (hx : S x) :
    x ≠ .none := by
  rintro rfl
  have h := horder _ _ hx hx .gt
  simp [Item.compare, Item.data] at h

variable {spec : FilterSpec} {lo hi x : Item}

variable {env : Env} {s : String}

/-- An endpoint that is present is a value that the base type parses. -/
theorem Endpoint.parsed {part : List Char} (h : Endpoint env spec part x) (hx : x ≠ .none) :
    ∃ raw, elementSchema env spec raw = .ok x := by
  rcases h with ⟨-, hnone⟩ | ⟨-, hok⟩
  · exact absurd hnone hx
  · exact ⟨_, hok⟩

/-! ## The predicate -/

end

/-! ## Ordered base types -/

end ApiTemplate.Filtering
