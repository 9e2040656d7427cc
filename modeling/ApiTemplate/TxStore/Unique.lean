import ApiTemplate.TxStore.Sequential

/-!
# Unique keys

A schema whose `clash` is a unique constraint on a key never holds two rows of one key: inserts and
column writes are checked, and bulk updates leave the key alone.
-/

namespace TxStore

/-- The key behind the unique constraint of a schema; rows without a key are not constrained. -/
structure UniqueKey (σ : Schema) (κ : Type) where
  key : σ.Row → Option κ
  clash_of_key : ∀ r r' k, key r = some k → key r' = some k → σ.clash r r' = true
  key_set : ∀ u r, key (σ.set u r) = key r

namespace UniqueKey

variable {σ : Schema} {κ α : Type} (uk : UniqueKey σ κ)

/-- No two rows have the same key. -/
def Distinct (db : Db σ) : Prop :=
  ∀ i j r r' k, db.row i = some r → db.row j = some r' → uk.key r = some k → uk.key r' = some k →
    i = j

theorem distinct_empty : uk.Distinct (Db.empty : Db σ) := fun _ _ _ _ _ h => by cases h

variable {uk} {db db' : Db σ}

theorem Distinct.congr (h : uk.Distinct db) (hrow : db'.row = db.row) : uk.Distinct db' := by
  unfold Distinct
  rw [hrow]
  exact h

theorem Distinct.map {f : σ.Row → σ.Row} {hf : ∀ r, σ.rowId (f r) = σ.rowId r}
    (h : uk.Distinct db) (hkey : ∀ r, uk.key (f r) = uk.key r) : uk.Distinct (db.map f hf) := by
  intro i j r r' k hr hr' hk hk'
  obtain ⟨r₀, h₀, rfl⟩ := Option.map_eq_some_iff.mp hr
  obtain ⟨r₀', h₀', rfl⟩ := Option.map_eq_some_iff.mp hr'
  rw [hkey] at hk hk'
  exact h i j r₀ r₀' k h₀ h₀' hk hk'

theorem Distinct.update (h : uk.Distinct db) (u : σ.Update) : uk.Distinct (db.update u) := by
  refine h.map fun r => ?_
  unfold Db.updated
  split
  · exact uk.key_set u r
  · rfl

/-- A row that clashes with no other row shares its key with none. -/
theorem key_ne_of_clashes {r r' : σ.Row} {j : ℕ} {k : κ} (hc : db.clashes r = false)
    (hr' : db.row j = some r') (hj : j ≠ σ.rowId r) (hk : uk.key r = some k) :
    uk.key r' ≠ some k := by
  intro hk'
  unfold Db.clashes at hc
  rw [List.any_eq_false] at hc
  refine hc r' (Db.mem_rows_of_row hr') ?_
  rw [db.keyed j r' hr', uk.clash_of_key r r' k hk hk', Bool.and_true]
  exact decide_eq_true hj

theorem Distinct.insert {r : σ.Row} (h : uk.Distinct db) (hi : db.insert r = .ok db') :
    uk.Distinct db' := by
  unfold Db.insert at hi
  split at hi
  · cases hi
  · rename_i hc
    cases hi
    rw [Bool.not_eq_true, Bool.or_eq_false_iff] at hc
    intro i j r₁ r₂ k h₁ h₂ hk₁ hk₂
    rw [Db.put_row] at h₁ h₂
    by_cases hi : i = σ.rowId r
    · by_cases hj : j = σ.rowId r
      · rw [hi, hj]
      · rw [hi, Function.update_self] at h₁
        rw [Function.update_of_ne hj] at h₂
        cases h₁
        exact absurd hk₂ (key_ne_of_clashes hc.2 h₂ hj hk₁)
    · rw [Function.update_of_ne hi] at h₁
      by_cases hj : j = σ.rowId r
      · rw [hj, Function.update_self] at h₂
        cases h₂
        exact absurd hk₁ (key_ne_of_clashes hc.2 h₁ hi hk₂)
      · rw [Function.update_of_ne hj] at h₂
        exact h i j r₁ r₂ k h₁ h₂ hk₁ hk₂

theorem Distinct.write {p : σ.Patch} (h : uk.Distinct db) (hw : db.write p = .ok db') :
    uk.Distinct db' := by
  have hclash : ∀ r, db.row (σ.target p) = some r → db.clashes (σ.patch p r) = false := by
    intro r hr
    unfold Db.write at hw
    rw [hr] at hw
    cases hc : db.clashes (σ.patch p r) with
    | false => rfl
    | true =>
      simp only [Option.any_some, hc] at hw
      cases hw
  have hdb := Db.write_eq_ok hw
  subst hdb
  -- a row other than the target is the one it was
  have hsame : ∀ i r, i ≠ σ.target p → (db.map (Db.patched p) (Db.rowId_patched p)).row i = some r →
      db.row i = some r := by
    intro i r hi hr
    obtain ⟨r₀, h₀, rfl⟩ := Option.map_eq_some_iff.mp hr
    unfold Db.patched
    rw [if_neg (by rw [db.keyed i r₀ h₀]; exact hi)]
    exact h₀
  have htarget : ∀ r, (db.map (Db.patched p) (Db.rowId_patched p)).row (σ.target p) = some r →
      ∃ r₀, db.row (σ.target p) = some r₀ ∧ r = σ.patch p r₀ := by
    intro r hr
    obtain ⟨r₀, h₀, rfl⟩ := Option.map_eq_some_iff.mp hr
    refine ⟨r₀, h₀, ?_⟩
    unfold Db.patched
    rw [if_pos (db.keyed _ r₀ h₀)]
  intro i j r₁ r₂ k h₁ h₂ hk₁ hk₂
  by_cases hi : i = σ.target p
  · by_cases hj : j = σ.target p
    · rw [hi, hj]
    · rw [hi] at h₁
      obtain ⟨r₀, h₀, rfl⟩ := htarget r₁ h₁
      refine absurd hk₂ (key_ne_of_clashes (hclash r₀ h₀) (hsame j r₂ hj h₂) ?_ hk₁)
      rw [σ.rowId_patch, db.keyed _ r₀ h₀]
      exact hj
  · by_cases hj : j = σ.target p
    · rw [hj] at h₂
      obtain ⟨r₀, h₀, rfl⟩ := htarget r₂ h₂
      refine absurd hk₁ (key_ne_of_clashes (hclash r₀ h₀) (hsame i r₁ hi h₁) ?_ hk₂)
      rw [σ.rowId_patch, db.keyed _ r₀ h₀]
      exact hi
    · exact h i j r₁ r₂ k (hsame i r₁ hi h₁) (hsame j r₂ hj h₂) hk₁ hk₂

/-- Folding an operation that keeps the keys distinct keeps them distinct. -/
theorem Distinct.foldlM {γ : Type} {f : Db σ → γ → Except σ.Error (Db σ)}
    (hf : ∀ {db db' : Db σ} {c : γ}, uk.Distinct db → f db c = .ok db' → uk.Distinct db')
    {cs : List γ} (h : uk.Distinct db) (hc : cs.foldlM f db = .ok db') : uk.Distinct db' := by
  induction cs generalizing db with
  | nil =>
    cases hc
    exact h
  | cons c cs ih =>
    rw [List.foldlM_cons] at hc
    cases hfc : f db c with
    | error e =>
      rw [hfc] at hc
      cases hc
    | ok db₁ =>
      rw [hfc] at hc
      exact ih (hf h hfc) hc

theorem Distinct.flush {s : Session σ} (h : uk.Distinct db) (hf : db.flush s = .ok db') :
    uk.Distinct db' := by
  unfold Db.flush at hf
  cases hn : s.new.foldlM Db.insert db with
  | error e =>
    rw [hn] at hf
    cases hf
  | ok db₁ =>
    rw [hn] at hf
    exact Distinct.foldlM Distinct.write (Distinct.foldlM Distinct.insert h hn) hf

/-! ## Programs that run alone -/

/-- Both the committed content and what the open transaction sees have distinct keys. -/
structure Holds (uk : UniqueKey σ κ) (w : World σ) : Prop where
  committed : uk.Distinct w.committed
  view : uk.Distinct w.view

theorem holds_exec {w : World σ} (h : uk.Holds w) (c : Stmt σ) : uk.Holds (World.exec c w).2 := by
  cases c with
  | query q => exact h
  | update u => exact ⟨h.committed, h.view.update u⟩
  | add row keyed => exact ⟨h.committed, h.view.congr rfl⟩
  | assign p => exact ⟨h.committed, h.view⟩
  | emit n => exact ⟨h.committed, h.view⟩
  | flush =>
    rcases World.exec_flush_cases w with ⟨db, hf, he⟩ | ⟨e, -, he⟩
    · rw [he]
      exact ⟨h.committed, h.view.flush hf⟩
    · rw [he]
      exact h
  | commit =>
    rcases World.exec_commit_cases w with ⟨db, hf, he⟩ | ⟨e, -, he⟩
    · rw [he]
      exact ⟨h.view.flush hf, h.view.flush hf⟩
    · rw [he]
      exact h
  | rollback => exact ⟨h.committed.congr rfl, h.committed.congr rfl⟩

/-- **A unique constraint is kept.** -/
theorem Distinct.after (h : uk.Distinct db) (p : Prog σ α) : uk.Distinct (db.after p) :=
  (Program.run_invariant (P := uk.Holds) (fun c _ hw => holds_exec hw c) p ⟨h, h⟩).committed

end UniqueKey

end TxStore
