import ApiTemplate.TxStore.ReadCommitted
import Mathlib.Data.Set.Basic
import Mathlib.Logic.Relation

/-!
# Entitled writes

Which rows a program may write can depend on what it has read: it loads a row by some key and writes
that row. `Entitled` follows what a program has been shown of a part of the rows that no write
changes. Where every process is `Entitled` to its writes, the committed row under an identifier
descends from the one that stood there before, by writes of processes that had the right to them,
however the processes interleave and whatever fails.
-/

namespace TxStore

variable {σ : Schema} {κ τ α β : Type}

/-- What a process may do to a row: add it, or write another one in its place. -/
structure Rights (σ : Schema) where
  adds : σ.Row → Prop
  writes : σ.Row → σ.Row → Prop

/-- Identifiers, with the part of the row they stand for. -/
abbrev Facts (κ : Type) : Type := Set (ℕ × κ)

section

variable (part : σ.Row → κ)

/-- What a list of rows shows. -/
def shown (rows : List σ.Row) : Facts κ := {x | ∃ r ∈ rows, (σ.rowId r, part r) = x}

/-- The facts say nothing else of the row. -/
def Fits (F : Facts κ) (r : σ.Row) : Prop := ∀ k, (σ.rowId r, k) ∈ F → part r = k

theorem Fits.of_subset {F G : Facts κ} (hsub : F ⊆ G) {r : σ.Row} (h : Fits part G r) :
    Fits part F r := fun k hk => h k (hsub hk)

/-- An answer of a statement, and what it shows: a query answers from rows. -/
def Shows : (s : Stmt σ) → s.Res → Facts κ → Prop
  | .query q, x, G => ∃ rows, x = σ.answer q rows ∧ G = shown part rows
  | .update _, _, G | .add _ _, _, G | .assign _, _, G | .emit _, _, G | .flush, _, G
  | .commit, _, G | .rollback, _, G => G = ∅

/-- Where the facts hold, the statement is within the rights. -/
def Rights.Covers (a : Rights σ) (F : Facts κ) : Stmt σ → Prop
  | .update u => ∀ r, σ.guard u r = true → a.writes r (σ.set u r)
  | .add row _ => ∀ i, a.adds (row i)
  | .assign p => ∀ r, σ.rowId r = σ.target p → Fits part F r → a.writes r (σ.patch p r)
  | _ => True

theorem Rights.Covers.of_subset {a : Rights σ} {F G : Facts κ} (hsub : F ⊆ G) {s : Stmt σ}
    (h : a.Covers part F s) : a.Covers part G s := by
  cases s with
  | assign p => exact fun r hr hfit => h r hr (hfit.of_subset part hsub)
  | query | update | add | emit | flush | commit | rollback => exact h

/-- Started with the facts `F`, the program stays within the rights `a`, and ends, if not by an
error, in `Q`. -/
def Entitled (a : Rights σ) : Prog σ α → Facts κ → (α → Facts κ → Prop) → Prop
  | .done (.ok x), F, Q => Q x F
  | .done (.error _), _, _ => True
  | .step s k, F, Q => a.Covers part F s ∧ (∀ e, Entitled a (k (.error e)) F Q) ∧
    ∀ x G, Shows part s x G → Entitled a (k (.ok x)) (F ∪ G) Q

end

namespace Entitled

variable {part : σ.Row → κ} {a : Rights σ} {p : Prog σ α} {F : Facts κ} {Q : α → Facts κ → Prop}
  {R : β → Facts κ → Prop}

/-- **Composition.** Facts stay while a program goes on. -/
theorem onExit {f : Except σ.Error α → Prog σ β} (h : Entitled part a p F Q)
    (hok : ∀ x G, F ⊆ G → Q x G → Entitled part a (f (.ok x)) G R)
    (herror : ∀ e G, F ⊆ G → Entitled part a (f (.error e)) G R) :
    Entitled part a (p.onExit f) F R := by
  induction p generalizing F with
  | done r =>
    cases r with
    | ok x => exact hok x F subset_rfl h
    | error e => exact herror e F subset_rfl
  | step s k ih =>
    refine ⟨h.1, fun e => ih _ (h.2.1 e) hok herror, fun x G hG => ?_⟩
    have hsub : F ⊆ F ∪ G := Set.subset_union_left
    exact ih _ (h.2.2 x G hG) (fun y H hH => hok y H (hsub.trans hH))
      fun e H hH => herror e H (hsub.trans hH)

theorem bind {f : α → Prog σ β} (h : Entitled part a p F Q)
    (hf : ∀ x G, F ⊆ G → Q x G → Entitled part a (f x) G R) : Entitled part a (p >>= f) F R :=
  onExit h (fun x G hG hQ => hf x G hG hQ) fun _ _ _ => trivial

theorem lift {s : Stmt σ} (h : a.Covers part F s) :
    Entitled part a (Program.lift s) F fun x G => ∃ H, Shows part s x H ∧ G = F ∪ H :=
  ⟨h, fun _ => trivial, fun _ G hG => ⟨G, hG, rfl⟩⟩

/-- A statement that shows nothing, or whose answer does not matter. -/
theorem lift_bind {s : Stmt σ} (h : a.Covers part F s) {f : s.Res → Prog σ β}
    (hf : ∀ x G, F ⊆ G → Entitled part a (f x) G R) :
    Entitled part a (Program.lift s >>= f) F R :=
  (lift h).bind fun x G hG _ => hf x G hG

theorem ofExcept {r : Except σ.Error α} {f : α → Prog σ β}
    (h : ∀ x, r = .ok x → Entitled part a (f x) F R) :
    Entitled part a (Program.ofExcept r >>= f) F R := by
  cases r with
  | ok x => exact h x rfl
  | error e => trivial

theorem mono (h : Entitled part a p F Q) {Q' : α → Facts κ → Prop}
    (himp : ∀ x G, F ⊆ G → Q x G → Q' x G) : Entitled part a p F Q' := by
  induction p generalizing F with
  | done r =>
    cases r with
    | ok x => exact himp x F subset_rfl h
    | error e => trivial
  | step s k ih =>
    refine ⟨h.1, fun e => ih _ (h.2.1 e) himp, fun x G hG => ih _ (h.2.2 x G hG) ?_⟩
    exact fun y H hH => himp y H (Set.subset_union_left.trans hH)

/-- A program that gets along with some facts gets along with more. -/
theorem of_subset (h : Entitled part a p F fun _ _ => True) {G : Facts κ} (hsub : F ⊆ G) :
    Entitled part a p G fun _ _ => True := by
  induction p generalizing F G with
  | done r => cases r <;> trivial
  | step s k ih =>
    refine ⟨h.1.of_subset part hsub, fun e => ih _ (h.2.1 e) hsub, fun x H hH => ?_⟩
    exact ih _ (h.2.2 x H hH) (Set.union_subset_union_left H hsub)

/-- A program whose statements need no facts. -/
theorem of_only (h : p.Only (a.Covers part ∅)) : Entitled part a p F fun _ _ => True := by
  induction p generalizing F with
  | done r => cases r <;> trivial
  | step s k ih =>
    exact ⟨h.1.of_subset part (Set.empty_subset F), fun e => ih _ (h.2 _), fun x G _ => ih _ (h.2 _)⟩

/-- A unit of work adds no write of its own. -/
theorem withUow (h : Entitled part a p F fun _ _ => True) :
    Entitled part a (TxStore.withUow p) F fun _ _ => True := by
  have hclose : ∀ c : Except σ.Error Unit → Except σ.Error α, ∀ G : Facts κ,
      Entitled part a (.step .rollback fun x => .done (c x)) G fun _ _ => True := by
    refine fun c G => of_only ⟨trivial, fun _ => trivial⟩
  refine h.onExit (fun x G _ _ => ?_) fun e G _ => ?_
  · exact ⟨trivial, fun e => hclose _ _, fun _ H _ => hclose _ _⟩
  · exact ⟨trivial, fun e => hclose _ _, fun _ H _ => hclose _ _⟩

end Entitled

/-! ## Descent of rows -/

section

variable (rights : τ → Rights σ)

/-- The second row comes of the first by writes that some process has the right to. -/
def Descends : σ.Row → σ.Row → Prop :=
  Relation.ReflTransGen fun r r' => ∃ t, (rights t).writes r r'

/-- The row comes of the one that stood there, or, where none stood, of one that some process has
the right to add. -/
def Heir (r₀ : Option σ.Row) (r : σ.Row) : Prop :=
  match r₀ with
  | some r₀ => Descends rights r₀ r
  | none => ∃ t n, (rights t).adds n ∧ Descends rights n r

end

section

variable {rights : τ → Rights σ} {part : σ.Row → κ} {r r' : σ.Row} {o : Option σ.Row}

theorem Heir.descends (h : Heir rights o r) (hd : Descends rights r r') : Heir rights o r' := by
  cases o with
  | some r₀ => exact Relation.ReflTransGen.trans h hd
  | none =>
    obtain ⟨t, n, hn, hd'⟩ := h
    exact ⟨t, n, hn, hd'.trans hd⟩

theorem Heir.self (r : σ.Row) : Heir rights (some r) r := Relation.ReflTransGen.refl

/-- Descent over a point in between. -/
theorem Heir.trans {o' : Option σ.Row} (h : ∀ r, o' = some r → Heir rights o r)
    (hsome : o' = none → o = none) (h' : Heir rights o' r) : Heir rights o r := by
  cases o' with
  | some r₁ => exact (h r₁ rfl).descends h'
  | none =>
    rw [hsome rfl]
    exact h'

/-- No write changes the part of a row. -/
def Preserves (rights : τ → Rights σ) (part : σ.Row → κ) : Prop :=
  ∀ t r r', (rights t).writes r r' → part r' = part r

theorem Descends.part_eq (hpart : Preserves rights part) (h : Descends rights r r') :
    part r' = part r := by
  induction h with
  | refl => rfl
  | tail _ hw ih =>
    obtain ⟨t, hw⟩ := hw
    exact (hpart t _ _ hw).trans ih

/-- What a session makes of a row that fits the facts. -/
theorem descends_apply (hpart : Preserves rights part) {t : τ} {F : Facts κ} {s : Session σ}
    (hs : ∀ p ∈ s.patches, (rights t).Covers part F (.assign p)) (hr : Fits part F r) :
    Descends rights r (s.apply r) := by
  unfold Session.apply
  generalize s.patches = ps at hs
  induction ps generalizing r with
  | nil => exact .refl
  | cons p ps ih =>
    rw [List.foldl_cons]
    have htail := fun q hq => hs q (List.mem_cons_of_mem p hq)
    unfold Db.patched
    by_cases hid : σ.rowId r = σ.target p
    · rw [if_pos hid]
      have hw := hs p List.mem_cons_self r hid hr
      refine .trans (.single ⟨t, hw⟩) (ih ?_ htail)
      intro k hk
      rw [σ.rowId_patch] at hk
      exact (hpart t _ _ hw).trans (hr k hk)
    · rw [if_neg hid]
      exact ih hr htail

end

end TxStore
