import ApiTemplate.TxStore.Schema

/-!
# Row versions under READ COMMITTED

A `Store` holds, besides the committed content, at most one uncommitted version per row, together
with the transaction that wrote it: the row lock. A transaction sees the committed rows and its own
versions (`view`). A write to a row another transaction holds has to wait (`none`); a commit
publishes the versions of its transaction and a rollback drops them.
-/

namespace TxStore

/-- Committed rows and the uncommitted version of each locked row. -/
structure Store (σ : Schema) (τ : Type) where
  base : Db σ
  pending : ℕ → Option (τ × σ.Row)
  pending_bound : ∀ i, base.next ≤ i → pending i = none
  pending_keyed : ∀ i t r, pending i = some (t, r) → σ.rowId r = i

namespace Store

variable {σ : Schema} {τ : Type}

/-- A store without open transactions. -/
def ofDb (db : Db σ) : Store σ τ where
  base := db
  pending _ := none
  pending_bound _ _ := rfl
  pending_keyed _ _ _ h := by cases h

@[simp] theorem ofDb_base (db : Db σ) : (ofDb db : Store σ τ).base = db := rfl

@[simp] theorem ofDb_pending (db : Db σ) (i : ℕ) : (ofDb db : Store σ τ).pending i = none := rfl

/-- Take the identifiers below `n` out of circulation. -/
def reserve (st : Store σ τ) (n : ℕ) : Store σ τ where
  base := st.base.reserve n
  pending := st.pending
  pending_bound i hi := st.pending_bound i (le_trans (le_max_left _ _) hi)
  pending_keyed := st.pending_keyed

@[simp] theorem reserve_base_row (st : Store σ τ) (n : ℕ) :
    (st.reserve n).base.row = st.base.row := rfl

@[simp] theorem reserve_pending (st : Store σ τ) (n : ℕ) :
    (st.reserve n).pending = st.pending := rfl

/-- Write a version of a row for transaction `t`. -/
def put (st : Store σ τ) (t : τ) (r : σ.Row) : Store σ τ where
  base := st.base.reserve (σ.rowId r + 1)
  pending := Function.update st.pending (σ.rowId r) (some (t, r))
  pending_bound i hi := by
    have hi' : max st.base.next (σ.rowId r + 1) ≤ i := hi
    rw [Function.update_of_ne (by omega)]
    exact st.pending_bound i (by omega)
  pending_keyed i t' r' h := by
    by_cases hi : i = σ.rowId r
    · subst hi
      rw [Function.update_self] at h
      cases h
      rfl
    · rw [Function.update_of_ne hi] at h
      exact st.pending_keyed i t' r' h

@[simp] theorem put_base_row (st : Store σ τ) (t : τ) (r : σ.Row) :
    (st.put t r).base.row = st.base.row := rfl

theorem put_pending (st : Store σ τ) (t : τ) (r : σ.Row) (i : ℕ) :
    (st.put t r).pending i = if i = σ.rowId r then some (t, r) else st.pending i := by
  by_cases hi : i = σ.rowId r
  · rw [if_pos hi, hi]
    exact Function.update_self _ _ _
  · rw [if_neg hi]
    exact Function.update_of_ne hi _ _

/-- Take over the rows `ids` of a content as versions of transaction `t`. -/
def adopt (st : Store σ τ) (t : τ) (ids : List ℕ) (db : Db σ) : Store σ τ where
  base := st.base.reserve db.next
  pending i := ((if i ∈ ids then db.row i else none).map (Prod.mk t)).or (st.pending i)
  pending_bound i hi := by
    rw [db.bound i (le_trans (le_max_right _ _) hi),
      st.pending_bound i (le_trans (le_max_left _ _) hi), ite_self]
    rfl
  pending_keyed i w r h := by
    rcases Option.or_eq_some_iff.mp h with h' | ⟨-, h'⟩
    · obtain ⟨r', hr', hp⟩ := Option.map_eq_some_iff.mp h'
      cases hp
      split at hr'
      · exact db.keyed i _ hr'
      · cases hr'
    · exact st.pending_keyed i w r h'

@[simp] theorem adopt_base_row (st : Store σ τ) (t : τ) (ids : List ℕ) (db : Db σ) :
    (st.adopt t ids db).base.row = st.base.row := rfl

theorem adopt_pending_of_mem {st : Store σ τ} {t : τ} {ids : List ℕ} {db : Db σ} {i : ℕ}
    {r : σ.Row} (hi : i ∈ ids) (hr : db.row i = some r) :
    (st.adopt t ids db).pending i = some (t, r) := by
  change Option.or _ _ = _
  rw [if_pos hi, hr]
  rfl

theorem adopt_pending_of_notMem {st : Store σ τ} {t : τ} {ids : List ℕ} {db : Db σ} {i : ℕ}
    (h : i ∉ ids ∨ db.row i = none) : (st.adopt t ids db).pending i = st.pending i := by
  change Option.or _ _ = _
  rcases h with hi | hr
  · rw [if_neg hi]
    rfl
  · rw [hr, ite_self]
    rfl

variable [DecidableEq τ]

/-- The version of row `i` that transaction `t` sees. -/
def visible (st : Store σ τ) (t : τ) (i : ℕ) : Option σ.Row :=
  match st.pending i with
  | some (w, r) => if w = t then some r else st.base.row i
  | none => st.base.row i

/-- Row `i` has an uncommitted version of another transaction. -/
def lockedFor (st : Store σ τ) (t : τ) (i : ℕ) : Bool :=
  (st.pending i).any fun p => decide (p.1 ≠ t)

theorem visible_of_pending {st : Store σ τ} {t : τ} {i : ℕ} {r : σ.Row}
    (h : st.pending i = some (t, r)) : st.visible t i = some r := by
  unfold visible
  rw [h]
  exact if_pos rfl

theorem visible_of_not_pending {st : Store σ τ} {t : τ} {i : ℕ}
    (h : ∀ r, st.pending i ≠ some (t, r)) : st.visible t i = st.base.row i := by
  unfold visible
  cases hp : st.pending i with
  | none => rfl
  | some p =>
    obtain ⟨w, r⟩ := p
    have hw : w ≠ t := by
      rintro rfl
      exact h r hp
    exact if_neg hw

/-- What a transaction sees of a row is its own version of it or the committed one. -/
theorem visible_cases (st : Store σ τ) (t : τ) (i : ℕ) :
    (∃ r, st.pending i = some (t, r) ∧ st.visible t i = some r) ∨
      ((∀ r, st.pending i ≠ some (t, r)) ∧ st.visible t i = st.base.row i) := by
  by_cases h : ∃ r, st.pending i = some (t, r)
  · obtain ⟨r, hr⟩ := h
    exact Or.inl ⟨r, hr, visible_of_pending hr⟩
  · rw [not_exists] at h
    exact Or.inr ⟨h, visible_of_not_pending h⟩

theorem lockedFor_eq_false {st : Store σ τ} {t : τ} {i : ℕ} :
    st.lockedFor t i = false ↔ ∀ w r, st.pending i = some (w, r) → w = t := by
  unfold lockedFor
  cases hp : st.pending i with
  | none => simp
  | some p =>
    obtain ⟨w, r⟩ := p
    simp only [Option.any_some, decide_eq_false_iff_not, not_not, Option.some.injEq, Prod.mk.injEq]
    constructor
    · rintro h _ _ ⟨rfl, -⟩
      exact h
    · intro h
      exact h w r ⟨rfl, rfl⟩

/-- The content a transaction sees. -/
def view (st : Store σ τ) (t : τ) : Db σ where
  row := st.visible t
  next := st.base.next
  bound i hi := by
    rw [visible, st.pending_bound i hi]
    exact st.base.bound i hi
  keyed i r h := by
    rcases st.visible_cases t i with ⟨r', hp, hv⟩ | ⟨-, hv⟩
    · rw [hv] at h
      cases h
      exact st.pending_keyed i t _ hp
    · rw [hv] at h
      exact st.base.keyed i r h

@[simp] theorem view_row (st : Store σ τ) (t : τ) (i : ℕ) : (st.view t).row i = st.visible t i := rfl

theorem put_visible (st : Store σ τ) (t w : τ) (r : σ.Row) (i : ℕ) :
    (st.put t r).visible w i =
      if i = σ.rowId r then (if t = w then some r else st.base.row i) else st.visible w i := by
  by_cases hi : i = σ.rowId r
  · rw [if_pos hi, visible, put_pending, if_pos hi]
    rfl
  · rw [if_neg hi, visible, put_pending, if_neg hi]
    rfl

/-- Publish the versions of a transaction. -/
def publish (st : Store σ τ) (t : τ) : Store σ τ where
  base := st.view t
  pending i := (st.pending i).filter fun p => decide (p.1 ≠ t)
  pending_bound i hi := by rw [st.pending_bound i hi]; rfl
  pending_keyed i w r h := st.pending_keyed i w r (Option.filter_eq_some_iff.mp h).1

/-- Drop the versions of a transaction. -/
def discard (st : Store σ τ) (t : τ) : Store σ τ where
  base := st.base
  pending i := (st.pending i).filter fun p => decide (p.1 ≠ t)
  pending_bound i hi := by rw [st.pending_bound i hi]; rfl
  pending_keyed i w r h := st.pending_keyed i w r (Option.filter_eq_some_iff.mp h).1

@[simp] theorem publish_base_row (st : Store σ τ) (t : τ) :
    (st.publish t).base.row = st.visible t := rfl

@[simp] theorem discard_base (st : Store σ τ) (t : τ) : (st.discard t).base = st.base := rfl

@[simp] theorem discard_pending (st : Store σ τ) (t : τ) :
    (st.discard t).pending = (st.publish t).pending := rfl

/-- The versions that stay after the end of transaction `t` are those of the others. -/
theorem publish_pending_eq_some {st : Store σ τ} {t w : τ} {i : ℕ} {r : σ.Row} :
    (st.publish t).pending i = some (w, r) ↔ st.pending i = some (w, r) ∧ w ≠ t := by
  change (st.pending i).filter _ = some (w, r) ↔ _
  rw [Option.filter_eq_some_iff]
  simp

/-- The end of one transaction leaves the rows another one has written as they are to it. -/
theorem publish_visible_of_pending {st : Store σ τ} {t w : τ} (hw : w ≠ t) {i : ℕ} {r : σ.Row}
    (h : st.pending i = some (w, r)) : (st.publish t).visible w i = some r :=
  visible_of_pending (publish_pending_eq_some.mpr ⟨h, hw⟩)

theorem publish_visible_of_not_pending {st : Store σ τ} {t w : τ} {i : ℕ}
    (h : ∀ r, st.pending i ≠ some (w, r)) : (st.publish t).visible w i = st.visible t i :=
  visible_of_not_pending fun r hr => h r (publish_pending_eq_some.mp hr).1

theorem discard_visible (st : Store σ τ) (t w : τ) (i : ℕ) :
    (st.discard t).visible w i = if w = t then st.base.row i else st.visible w i := by
  by_cases hw : w = t
  · rw [if_pos hw, hw]
    refine visible_of_not_pending fun r hr => ?_
    exact (publish_pending_eq_some.mp hr).2 rfl
  · rw [if_neg hw]
    rcases st.visible_cases w i with ⟨r, hp, hv⟩ | ⟨hp, hv⟩
    · rw [hv]
      exact visible_of_pending (publish_pending_eq_some.mpr ⟨hp, hw⟩)
    · rw [hv]
      exact visible_of_not_pending fun r hr => hp r (publish_pending_eq_some.mp hr).1

/-! ## Flushing a session -/

/-- The rows that other transactions have written and not committed. -/
def drafts (st : Store σ τ) (t : τ) : List σ.Row :=
  (List.range st.base.next).filterMap fun i =>
    ((st.pending i).filter fun p => decide (p.1 ≠ t)).map Prod.snd

/-- A flush has to wait for another transaction: it writes a row that one holds, or a row that a
unique constraint sets against one of its rows. -/
def waits (st : Store σ τ) (t : τ) (s : Session σ) : Bool :=
  s.ids.any (st.lockedFor t) ||
    s.new.any (fun r => (st.drafts t).any (σ.clash r)) ||
    s.patches.any fun p => (st.visible t (σ.target p)).any fun r =>
      (st.drafts t).any (σ.clash (σ.patch p r))

/-- `flush` of transaction `t`: `none` when it has to wait. -/
def flush (st : Store σ τ) (t : τ) (s : Session σ) : Option (Except σ.Error (Store σ τ)) :=
  if st.waits t s then none else some (((st.view t).flush s).map (st.adopt t s.ids))

variable {st st' : Store σ τ} {t : τ} {s : Session σ}

/-- A flush that does not wait writes no row of another transaction. -/
theorem lockedFor_of_flush {x : Except σ.Error (Store σ τ)} (h : st.flush t s = some x) {i : ℕ}
    (hi : i ∈ s.ids) : st.lockedFor t i = false := by
  unfold flush at h
  split at h
  · cases h
  · rename_i hw
    simp only [waits, Bool.or_eq_true, not_or, List.any_eq_true, not_exists, not_and] at hw
    exact Bool.not_eq_true _ ▸ hw.1.1 i hi

theorem flush_eq_ok (h : st.flush t s = some (.ok st')) :
    ∃ db, (st.view t).flush s = .ok db ∧ st' = st.adopt t s.ids db := by
  unfold flush at h
  split at h
  · cases h
  · cases hf : (st.view t).flush s with
    | error e =>
      rw [hf] at h
      cases h
    | ok db =>
      rw [hf] at h
      cases h
      exact ⟨db, rfl, rfl⟩

/-- What a transaction sees after its flush is what the flush made of what it saw. -/
theorem flush_visible (h : st.flush t s = some (.ok st')) :
    ∃ db, (st.view t).flush s = .ok db ∧ ∀ i, st'.visible t i = db.row i := by
  obtain ⟨db, hf, rfl⟩ := flush_eq_ok h
  refine ⟨db, hf, fun i => ?_⟩
  by_cases hi : i ∈ s.ids
  · cases hr : db.row i with
    | some r => exact visible_of_pending (adopt_pending_of_mem hi hr)
    | none =>
      have hv : st.visible t i = none := by
        cases hv : st.visible t i with
        | none => rfl
        | some r =>
          rw [Db.flush_row_of_some hf hv] at hr
          cases hr
      rw [← hv]
      unfold visible
      rw [adopt_pending_of_notMem (Or.inr hr)]
      rfl
  · rw [Db.flush_row_of_notMem hf hi]
    change _ = st.visible t i
    unfold visible
    rw [adopt_pending_of_notMem (Or.inl hi)]
    rfl

/-- The versions of the other transactions survive a flush. -/
theorem flush_pending_of_ne (h : st.flush t s = some (.ok st')) {w : τ} (hw : w ≠ t) (i : ℕ)
    (r : σ.Row) : st'.pending i = some (w, r) ↔ st.pending i = some (w, r) := by
  have hlock : i ∈ s.ids → st.lockedFor t i = false := lockedFor_of_flush h
  obtain ⟨db, hf, rfl⟩ := flush_eq_ok h
  by_cases hi : i ∈ s.ids
  · cases hr : db.row i with
    | some r' =>
      rw [adopt_pending_of_mem hi hr]
      constructor
      · intro hp
        cases hp
        exact absurd rfl hw
      · intro hp
        exact absurd (lockedFor_eq_false.mp (hlock hi) w r hp) hw
    | none => rw [adopt_pending_of_notMem (Or.inr hr)]
  · rw [adopt_pending_of_notMem (Or.inl hi)]

theorem flush_base_row (h : st.flush t s = some (.ok st')) : st'.base.row = st.base.row := by
  obtain ⟨db, -, rfl⟩ := flush_eq_ok h
  rfl

/-- Another transaction sees nothing of a flush. -/
theorem flush_visible_of_ne (h : st.flush t s = some (.ok st')) {w : τ} (hw : w ≠ t) (i : ℕ) :
    st'.visible w i = st.visible w i := by
  rcases st.visible_cases w i with ⟨r, hp, hv⟩ | ⟨hp, hv⟩
  · rw [hv]
    exact visible_of_pending ((flush_pending_of_ne h hw i r).mpr hp)
  · rw [hv, visible_of_not_pending, flush_base_row h]
    exact fun r hr => hp r ((flush_pending_of_ne h hw i r).mp hr)

end Store

end TxStore
