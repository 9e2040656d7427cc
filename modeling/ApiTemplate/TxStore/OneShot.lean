import ApiTemplate.TxStore.ReadCommitted

/-!
# Marks that are set once

Some bulk updates set a mark on a row (`UPDATE … SET used = … WHERE used IS NULL`), and nothing
else touches it. Under READ COMMITTED such a mark is set at most once by transactions that commit,
whatever the interleaving: the winner of a row holds its lock until it ends, and whoever waited
tests the `WHERE` again. The invariant `Inv` ties the marks of committed rows and uncommitted
versions to the deeds of the transactions.
-/

namespace TxStore

/-- A mark of a row that the updates in `spends` set on unmarked rows, and nothing else changes. -/
structure OneShot (σ : Schema) (κ : Type) where
  mark : σ.Row → Option κ
  spends : σ.Update → Bool
  unmarked : ∀ u r, spends u = true → σ.guard u r = true → mark r = none
  marked : ∀ u r, spends u = true → σ.guard u r = true → (mark (σ.set u r)).isSome = true
  set_keeps : ∀ u r, spends u = false → mark (σ.set u r) = mark r
  patch_keeps : ∀ p r, mark (σ.patch p r) = mark r

namespace OneShot

variable {σ : Schema} {τ α κ : Type} (o : OneShot σ κ)

/-- The deed sets the mark of row `i`. -/
def spendsRow (i : ℕ) : Deed σ → Bool
  | .began _ => false
  | .hit u j => o.spends u && decide (j = i)

/-- How often some deeds set the mark of row `i`. -/
def spent (i : ℕ) (ds : List (Deed σ)) : ℕ := ds.countP (o.spendsRow i)

/-- How often the committed transactions set the mark of row `i`. -/
def spentLog (i : ℕ) (log : List (τ × Deed σ)) : ℕ := log.countP fun e => o.spendsRow i e.2

@[simp] theorem spent_nil (i : ℕ) : o.spent i [] = 0 := rfl

@[simp] theorem spent_append_began (i : ℕ) (ds : List (Deed σ)) (u : σ.Update) :
    o.spent i (ds ++ [.began u]) = o.spent i ds := by
  unfold spent
  rw [List.countP_append]
  rfl

theorem spent_append_hit (i : ℕ) (ds : List (Deed σ)) (u : σ.Update) (j : ℕ) :
    o.spent i (ds ++ [.hit u j]) =
      o.spent i ds + if o.spends u = true ∧ j = i then 1 else 0 := by
  unfold spent
  rw [List.countP_append, List.countP_singleton]
  simp [spendsRow]

theorem spentLog_append (i : ℕ) (log : List (τ × Deed σ)) (t : τ) (ds : List (Deed σ)) :
    o.spentLog i (log ++ ds.map (Prod.mk t)) = o.spentLog i log + o.spent i ds := by
  unfold spentLog spent
  rw [List.countP_append, List.countP_map]
  rfl

/-- The mark of a row survives: `r'` carries the mark of `r`, if `r` has one. -/
def Keeps (r r' : σ.Row) : Prop := ∀ m, o.mark r = some m → o.mark r' = some m

variable {o} in
theorem Keeps.trans {r₁ r₂ r₃ : σ.Row} (h : o.Keeps r₁ r₂) (h' : o.Keeps r₂ r₃) :
    o.Keeps r₁ r₃ := fun m hm => h' m (h m hm)

theorem keeps_set {u : σ.Update} {r : σ.Row} (hg : σ.guard u r = true) :
    o.Keeps r (σ.set u r) := by
  intro m hm
  cases hu : o.spends u with
  | true =>
    rw [o.unmarked u r hu hg] at hm
    cases hm
  | false => rw [o.set_keeps u r hu, hm]

theorem mark_apply (s : Session σ) (r : σ.Row) : o.mark (s.apply r) = o.mark r :=
  Session.apply_keeps (fun p _ => o.patch_keeps p) r

/-- What holds between the marks in the store and the deeds of the transactions. -/
structure Inv (st : Store σ τ) (opened : τ → List (Deed σ)) (log : List (τ × Deed σ)) : Prop where
  /-- An uncommitted version keeps the mark of the committed row. -/
  keeps : ∀ i t r r₀, st.pending i = some (t, r) → st.base.row i = some r₀ → o.Keeps r₀ r
  /-- A mark an open transaction has set is set once, in a version it holds, and the committed
  row has none. -/
  opened : ∀ t i, 0 < o.spent i (opened t) → o.spent i (opened t) = 1 ∧
    (∃ r, st.pending i = some (t, r) ∧ (o.mark r).isSome = true) ∧
    ∀ r₀, st.base.row i = some r₀ → o.mark r₀ = none
  /-- A mark the committed transactions have set was set once, and the committed row has it. -/
  logged : ∀ i, 0 < o.spentLog i log → o.spentLog i log = 1 ∧
    ∃ r₀, st.base.row i = some r₀ ∧ (o.mark r₀).isSome = true

theorem inv_ofDb (db : Db σ) : o.Inv (Store.ofDb db : Store σ τ) (fun _ => []) [] where
  keeps _ _ _ _ h := by cases h
  opened _ _ h := absurd h (lt_irrefl 0)
  logged _ h := absurd h (lt_irrefl 0)

variable {o} {st st' : Store σ τ} {opened opened' : τ → List (Deed σ)} {log : List (τ × Deed σ)}
  {t : τ}

/-- The invariant reads only the rows of the store and the counts of the deeds. -/
theorem Inv.congr (h : o.Inv st opened log) (hbase : st'.base.row = st.base.row)
    (hpending : st'.pending = st.pending)
    (hopened : ∀ t i, o.spent i (opened' t) = o.spent i (opened t)) : o.Inv st' opened' log where
  keeps i w r r₀ hp hb := h.keeps i w r r₀ (hpending ▸ hp) (hbase ▸ hb)
  opened w i hpos := by
    rw [hopened] at hpos ⊢
    rw [hpending, hbase]
    exact h.opened w i hpos
  logged i hpos := by
    rw [hbase]
    exact h.logged i hpos

/-- Marks of rows that are not the transaction's own versions are those of the committed rows. -/
theorem Inv.keeps_visible [DecidableEq τ] (h : o.Inv st opened log) {i : ℕ} {r₀ r : σ.Row}
    (hb : st.base.row i = some r₀) (hv : st.visible t i = some r) : o.Keeps r₀ r := by
  rcases st.visible_cases t i with ⟨r', hp, hv'⟩ | ⟨-, hv'⟩
  · rw [hv'] at hv
    cases hv
    exact h.keeps i t _ r₀ hp hb
  · rw [hv', hb] at hv
    cases hv
    exact fun _ hm => hm

/-- **A marked row is not spent.** While the committed row has its mark, no open transaction has
set it. -/
theorem Inv.spent_eq_zero (h : o.Inv st opened log) {i : ℕ} {r : σ.Row}
    (hb : st.base.row i = some r) (hm : (o.mark r).isSome = true) (t : τ) :
    o.spent i (opened t) = 0 := by
  by_contra hne
  obtain ⟨-, -, hnone⟩ := h.opened t i (by omega)
  rw [hnone r hb] at hm
  cases hm

/-- **Once.** The committed transactions set the mark of a row at most once. -/
theorem Inv.spentLog_le_one (h : o.Inv st opened log) (i : ℕ) : o.spentLog i log ≤ 1 := by
  by_contra hlt
  have := (h.logged i (by omega)).1
  omega

variable [DecidableEq τ]

/-- A flush keeps the marks of the flushed versions and leaves the others in place. -/
theorem Inv.flush {s : Session σ} (h : o.Inv st opened log)
    (hf : st.flush t s = some (.ok st')) : o.Inv st' opened log := by
  have hbase := Store.flush_base_row hf
  obtain ⟨db, hdb, hvis⟩ := Store.flush_visible hf
  -- what the flushing transaction sees of a row it saw before carries the same mark
  have hmark : ∀ i r, st.visible t i = some r →
      ∃ r', st'.visible t i = some r' ∧ o.mark r' = o.mark r := by
    intro i r hv
    exact ⟨s.apply r, by rw [hvis, Db.flush_row_of_some hdb hv], o.mark_apply s r⟩
  refine ⟨?_, ?_, ?_⟩
  · intro i w r r₀ hp hb
    rw [hbase] at hb
    by_cases hw : w = t
    · subst hw
      have hv' := Store.visible_of_pending hp
      cases hv : st.visible w i with
      | some r₁ =>
        obtain ⟨r', hr', hm'⟩ := hmark i r₁ hv
        rw [hv'] at hr'
        cases hr'
        intro m hm
        rw [hm']
        exact h.keeps_visible hb hv m hm
      | none =>
        rcases st.visible_cases w i with ⟨r₁, -, hv₁⟩ | ⟨-, hv₁⟩
        · rw [hv] at hv₁
          cases hv₁
        · rw [hv, hb] at hv₁
          cases hv₁
    · exact h.keeps i w r r₀ ((Store.flush_pending_of_ne hf hw i r).mp hp) hb
  · intro w i hpos
    obtain ⟨hone, ⟨r, hp, hm⟩, hb⟩ := h.opened w i hpos
    rw [hbase]
    refine ⟨hone, ?_, hb⟩
    by_cases hw : w = t
    · subst hw
      obtain ⟨r', hr', hm'⟩ := hmark i r (Store.visible_of_pending hp)
      rcases st'.visible_cases w i with ⟨r₁, hp₁, hv₁⟩ | ⟨-, hv₁⟩
      · rw [hv₁] at hr'
        cases hr'
        exact ⟨_, hp₁, by rw [hm']; exact hm⟩
      · rw [hv₁, hbase] at hr'
        rw [hb r' hr'] at hm'
        rw [← hm'] at hm
        cases hm
    · exact ⟨r, (Store.flush_pending_of_ne hf hw i r).mpr hp, hm⟩
  · intro i hpos
    rw [hbase]
    exact h.logged i hpos

/-- A transaction that sees a row without its mark has not set it, nor is it committed. -/
theorem Inv.unspent {i : ℕ} {r : σ.Row} (h : o.Inv st opened log) (hv : st.visible t i = some r)
    (hr : o.mark r = none) :
    o.spent i (opened t) = 0 ∧ ∀ r₀, st.base.row i = some r₀ → o.mark r₀ = none := by
  refine ⟨?_, fun r₀ hb => ?_⟩
  · by_contra hne
    obtain ⟨-, ⟨r', hp', hm'⟩, -⟩ := h.opened t i (by omega)
    rw [Store.visible_of_pending hp'] at hv
    cases hv
    rw [hr] at hm'
    cases hm'
  · by_contra hm
    obtain ⟨m, hm⟩ := Option.ne_none_iff_exists'.mp hm
    have := h.keeps_visible hb hv m hm
    rw [hr] at this
    cases this

/-- The row of a hit that sets its mark, or had it set before. -/
theorem Inv.spent_hit {u : σ.Update} {i : ℕ} {r : σ.Row} (h : o.Inv st opened log)
    (hv : st.visible t i = some r) (hg : σ.guard u r = true)
    (hpos : 0 < o.spent i (opened t ++ [.hit u i])) :
    o.spent i (opened t ++ [.hit u i]) = 1 ∧ (o.mark (σ.set u r)).isSome = true ∧
      ∀ r₀, st.base.row i = some r₀ → o.mark r₀ = none := by
  rw [spent_append_hit] at hpos ⊢
  by_cases hu : o.spends u = true
  · obtain ⟨hzero, hbase⟩ := h.unspent hv (o.unmarked u r hu hg)
    rw [hzero, if_pos ⟨hu, rfl⟩]
    exact ⟨rfl, o.marked u r hu hg, hbase⟩
  · rw [if_neg (fun hc => hu hc.1), Nat.add_zero] at hpos ⊢
    obtain ⟨hone, ⟨r', hp', hm'⟩, hb⟩ := h.opened t i hpos
    rw [Store.visible_of_pending hp'] at hv
    cases hv
    refine ⟨hone, ?_, hb⟩
    rw [o.set_keeps u r (Bool.eq_false_iff.mpr hu)]
    exact hm'

/-- A bulk update that changes an unlocked row keeps the marks, or sets one. -/
theorem Inv.hit {u : σ.Update} {i : ℕ} {r : σ.Row} (h : o.Inv st opened log)
    (hl : st.lockedFor t i = false) (hv : st.visible t i = some r) (hg : σ.guard u r = true) :
    o.Inv (st.put t (σ.set u r)) (Function.update opened t (opened t ++ [.hit u i])) log := by
  have hid : σ.rowId (σ.set u r) = i := by
    rw [σ.rowId_set]
    exact (st.view t).keyed i r hv
  have hpend : ∀ j, (st.put t (σ.set u r)).pending j =
      if j = i then some (t, σ.set u r) else st.pending j := by
    intro j
    rw [Store.put_pending, hid]
  refine ⟨?_, ?_, h.logged⟩
  · intro j w r' r₀ hp hb
    rw [hpend] at hp
    split at hp
    · rename_i hj
      subst hj
      cases hp
      exact (h.keeps_visible hb hv).trans (o.keeps_set hg)
    · exact h.keeps j w r' r₀ hp hb
  · intro w j hpos
    rw [hpend, Store.put_base_row]
    by_cases hw : w = t
    · subst hw
      rw [Function.update_self] at hpos ⊢
      by_cases hj : j = i
      · subst hj
        obtain ⟨hone, hm, hb⟩ := h.spent_hit hv hg hpos
        rw [if_pos rfl]
        exact ⟨hone, ⟨_, rfl, hm⟩, hb⟩
      · rw [if_neg hj]
        rw [spent_append_hit, if_neg (fun hc => hj hc.2.symm), Nat.add_zero] at hpos ⊢
        exact h.opened w j hpos
    · rw [Function.update_of_ne hw] at hpos ⊢
      obtain ⟨hone, ⟨r', hp', hm'⟩, hb⟩ := h.opened w j hpos
      refine ⟨hone, ⟨r', ?_, hm'⟩, hb⟩
      rw [if_neg]
      · exact hp'
      · rintro rfl
        exact hw (Store.lockedFor_eq_false.mp hl w r' hp')

/-- A transaction that has ended has no marks open. -/
theorem ne_of_spent_pos {w : τ} {i : ℕ} (h : 0 < o.spent i (Function.update opened t [] w)) :
    w ≠ t := by
  rintro rfl
  rw [Function.update_self] at h
  exact absurd h (lt_irrefl 0)

/-- The end of a transaction without effect. -/
theorem Inv.discard (h : o.Inv st opened log) :
    o.Inv (st.discard t) (Function.update opened t []) log := by
  refine ⟨?_, ?_, h.logged⟩
  · intro i w r r₀ hp hb
    exact h.keeps i w r r₀ (Store.publish_pending_eq_some.mp hp).1 hb
  · intro w i hpos
    have hw := ne_of_spent_pos hpos
    rw [Function.update_of_ne hw] at hpos ⊢
    obtain ⟨hone, ⟨r, hp, hm⟩, hb⟩ := h.opened w i hpos
    exact ⟨hone, ⟨r, Store.publish_pending_eq_some.mpr ⟨hp, hw⟩, hm⟩, hb⟩

/-- A commit hands the marks its transaction has set over to the committed rows. -/
theorem Inv.publish (h : o.Inv st opened log) :
    o.Inv (st.publish t) (Function.update opened t [])
      (log ++ (opened t).map (Prod.mk t)) := by
  -- a row that another transaction holds is published as it was committed
  have hother : ∀ w i r, w ≠ t → st.pending i = some (w, r) → st.visible t i = st.base.row i := by
    intro w i r hw hp
    refine Store.visible_of_not_pending fun r' hr' => ?_
    rw [hp] at hr'
    cases hr'
    exact hw rfl
  refine ⟨?_, ?_, ?_⟩
  · intro i w r r₀ hp hb
    obtain ⟨hp, hw⟩ := Store.publish_pending_eq_some.mp hp
    rw [Store.publish_base_row, hother w i r hw hp] at hb
    exact h.keeps i w r r₀ hp hb
  · intro w i hpos
    have hw := ne_of_spent_pos hpos
    rw [Function.update_of_ne hw] at hpos ⊢
    obtain ⟨hone, ⟨r, hp, hm⟩, hb⟩ := h.opened w i hpos
    refine ⟨hone, ⟨r, Store.publish_pending_eq_some.mpr ⟨hp, hw⟩, hm⟩, ?_⟩
    rw [Store.publish_base_row, hother w i r hw hp]
    exact hb
  · intro i hpos
    rw [spentLog_append] at hpos ⊢
    by_cases hopen : o.spent i (opened t) = 0
    · rw [hopen, Nat.add_zero] at hpos ⊢
      obtain ⟨hone, r₀, hb, hm⟩ := h.logged i hpos
      refine ⟨hone, ?_⟩
      obtain ⟨m, hm⟩ := Option.isSome_iff_exists.mp hm
      rcases st.visible_cases t i with ⟨r, hp, hv⟩ | ⟨-, hv⟩
      · exact ⟨r, hv, by rw [h.keeps i t r r₀ hp hb m hm]; rfl⟩
      · exact ⟨r₀, by rw [Store.publish_base_row, hv, hb], by rw [hm]; rfl⟩
    · obtain ⟨hone, ⟨r, hp, hm⟩, hb⟩ := h.opened t i (by omega)
      have hzero : o.spentLog i log = 0 := by
        by_contra hne
        obtain ⟨-, r₀, hb₀, hm₀⟩ := h.logged i (by omega)
        rw [hb r₀ hb₀] at hm₀
        cases hm₀
      exact ⟨by omega, r, Store.visible_of_pending hp, hm⟩

/-! ## Runs -/

variable {s s' : Sys σ τ α} {ok : Sys σ τ α → Action τ → Prop}

/-- The invariant of the mark in a state of the system. -/
abbrev Holds (o : OneShot σ κ) (s : Sys σ τ α) : Prop := o.Inv s.store s.opened s.log

theorem holds_step (h : o.Holds s) (hs : Sys.Step s t s') : o.Holds s' := by
  cases hs with
  | query | skip | finish | assign | emit => exact h.congr rfl rfl fun _ _ => rfl
  | add => exact h.congr rfl rfl fun _ _ => rfl
  | begin =>
    refine h.congr rfl rfl fun w i => ?_
    rw [Sys.note_opened, Sys.goto_opened]
    by_cases hw : w = t
    · subst hw
      rw [Function.update_self, spent_append_began]
    · rw [Function.update_of_ne hw]
  | hit hp hc hl hv hg => exact h.hit hl hv hg
  | flush hp hf => exact h.flush hf
  | commit hp hf => exact (h.flush hf).publish
  | rollback | raise => exact h.discard

theorem holds_reach (h : o.Holds s) (hr : Reach Sys.step ok s s') : o.Holds s' :=
  hr.invariant h fun _ _ _ h _ hs => holds_step h (Sys.step_cases hs)

/-- A committed mark is in the committed row after any step, too. -/
theorem mark_step (h : o.Holds s) (hs : Sys.Step s t s') {i : ℕ} {r : σ.Row} {m : κ}
    (hb : s.store.base.row i = some r) (hm : o.mark r = some m) :
    ∃ r', s'.store.base.row i = some r' ∧ o.mark r' = some m := by
  cases hs with
  | query | skip | finish | assign | emit | add | begin | hit | rollback | raise =>
    exact ⟨r, hb, hm⟩
  | flush hp hf =>
    refine ⟨r, ?_, hm⟩
    rw [Sys.goto_store, Store.flush_base_row hf, hb]
  | @commit k st hp hf =>
    rw [Sys.publish_store, Store.publish_base_row]
    have hb' := hb
    rw [← Store.flush_base_row hf] at hb'
    rcases st.visible_cases t i with ⟨r', hp', hv'⟩ | ⟨-, hv'⟩
    · exact ⟨r', hv', (h.flush hf).keeps i t r' r hp' hb' m hm⟩
    · exact ⟨r, by rw [hv', hb'], hm⟩

/-- **A committed mark never changes.** -/
theorem mark_reach (h : o.Holds s) (hr : Reach Sys.step ok s s') {i : ℕ} {r : σ.Row} {m : κ}
    (hb : s.store.base.row i = some r) (hm : o.mark r = some m) :
    ∃ r', s'.store.base.row i = some r' ∧ o.mark r' = some m := by
  have key : o.Holds s' ∧ ∃ r', s'.store.base.row i = some r' ∧ o.mark r' = some m := by
    refine hr.invariant (P := fun s => o.Holds s ∧ ∃ r', s.store.base.row i = some r' ∧
      o.mark r' = some m) ⟨h, r, hb, hm⟩ ?_
    rintro s₁ a s₂ ⟨h, r, hb, hm⟩ - hs
    exact ⟨holds_step h (Sys.step_cases hs), mark_step h (Sys.step_cases hs) hb hm⟩
  exact key.2

/-- **No second time.** A mark that a committed transaction has set is not set in any later state by
an open transaction. -/
theorem spent_eq_zero_of_reach (h : o.Holds s) (hr : Reach Sys.step ok s s') {i : ℕ}
    (hspent : 0 < o.spentLog i s.log) (t : τ) : o.spent i (s'.opened t) = 0 := by
  obtain ⟨-, r, hb, hm⟩ := h.logged i hspent
  obtain ⟨m, hm⟩ := Option.isSome_iff_exists.mp hm
  obtain ⟨r', hb', hm'⟩ := mark_reach h hr hb hm
  exact (holds_reach h hr).spent_eq_zero hb' (by rw [hm']; rfl) t

end OneShot

end TxStore
