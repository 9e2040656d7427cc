import ApiTemplate.TxStore.Entitled

/-!
# The lineage of committed rows

Along every interleaving of processes that are `Entitled` to their writes: a committed row stays, or
is followed by one that descends from it, and a row that appears descends from one that was rightly
added.
-/

namespace TxStore

variable {σ : Schema} {κ τ α : Type}

/-- The row stands under the identifier, committed or not. -/
def Store.Stands (st : Store σ τ) (i : ℕ) (r : σ.Row) : Prop :=
  st.base.row i = some r ∨ ∃ t, st.pending i = some (t, r)

theorem Store.rowId_of_stands {st : Store σ τ} {i : ℕ} {r : σ.Row} (h : st.Stands i r) :
    σ.rowId r = i := by
  rcases h with hb | ⟨t, hp⟩
  · exact st.base.keyed i r hb
  · exact st.pending_keyed i t r hp

theorem Store.lt_of_stands {st : Store σ τ} {i : ℕ} {r : σ.Row} (h : st.Stands i r) :
    i < st.base.next := by
  rcases h with hb | ⟨t, hp⟩
  · exact st.base.lt_next hb
  · by_contra hi
    rw [st.pending_bound i (not_lt.mp hi)] at hp
    cases hp

variable (rights : τ → Rights σ) (part : σ.Row → κ)

/-- What holds between the store, the new rows of the sessions and the facts the processes rely
on. -/
structure Lineage (st : Store σ τ) (new : τ → List σ.Row) (facts : τ → Facts κ) : Prop where
  heirs : ∀ i t r, st.pending i = some (t, r) → Heir rights (st.base.row i) r
  added : ∀ t, ∀ n ∈ new t, (rights t).adds n
  /-- A new row has its identifier for itself. -/
  fresh : ∀ t, ∀ n ∈ new t, σ.rowId n < st.base.next ∧ (∀ r, ¬st.Stands (σ.rowId n) r) ∧
    ∀ w, ∀ m ∈ new w, σ.rowId m = σ.rowId n → w = t
  /-- A fact is about a row that has been inserted, and holds. -/
  settled : ∀ t i k, (i, k) ∈ facts t → i < st.base.next ∧ (∀ r, st.Stands i r → part r = k) ∧
    ∀ w, ∀ n ∈ new w, σ.rowId n ≠ i

namespace Lineage

variable {rights part} {st st' : Store σ τ} {new new' : τ → List σ.Row} {facts : τ → Facts κ}
  {t : τ} {i : ℕ} {r r' : σ.Row}

/-- Without uncommitted rows and new ones, and before anything was read. -/
theorem ofDb (db : Db σ) :
    Lineage rights part (Store.ofDb db : Store σ τ) (fun _ => []) fun _ => ∅ where
  heirs _ _ _ h := nomatch h
  added _ _ h := nomatch h
  fresh _ _ h := nomatch h
  settled _ _ _ h := h.elim

/-- Sessions that were emptied. -/
theorem weaken (h : Lineage rights part st new facts) (hnew : ∀ w, new' w ⊆ new w) :
    Lineage rights part st new' facts where
  heirs := h.heirs
  added w n hn := h.added w n (hnew w hn)
  fresh w n hn := by
    obtain ⟨hlt, hno, hown⟩ := h.fresh w n (hnew w hn)
    exact ⟨hlt, hno, fun v m hm => hown v m (hnew v hm)⟩
  settled w i k hk := by
    obtain ⟨hlt, hpart, hne⟩ := h.settled w i k hk
    exact ⟨hlt, hpart, fun v n hn => hne v n (hnew v hn)⟩

/-- All that stands under one identifier has the same part. -/
theorem part_eq (h : Lineage rights part st new facts) (hpart : Preserves rights part)
    (hr : st.Stands i r) (hr' : st.Stands i r') : part r = part r' := by
  have hbase : ∀ r₀ v, st.base.row i = some r₀ → st.Stands i v → part v = part r₀ := by
    intro r₀ v hb hv
    rcases hv with hv | ⟨t, hv⟩
    · rw [hb] at hv
      cases hv
      rfl
    · have hd := h.heirs i t v hv
      rw [hb] at hd
      exact Descends.part_eq hpart hd
  cases hb : st.base.row i with
  | some r₀ => exact (hbase r₀ r hb hr).trans (hbase r₀ r' hb hr').symm
  | none =>
    rcases hr with hr | ⟨t, hr⟩
    · rw [hb] at hr
      cases hr
    rcases hr' with hr' | ⟨t', hr'⟩
    · rw [hb] at hr'
      cases hr'
    rw [hr] at hr'
    cases hr'
    rfl

/-- What stands fits the facts. -/
theorem fits (h : Lineage rights part st new facts) (hr : st.Stands i r) :
    Fits part (facts t) r := by
  intro k hk
  rw [Store.rowId_of_stands hr] at hk
  exact (h.settled t i k hk).2.1 r hr

/-- So does a new row: no fact is about it. -/
theorem fits_new (h : Lineage rights part st new facts) {w : τ} {n : σ.Row} (hn : n ∈ new w) :
    Fits part (facts t) n := by
  intro k hk
  exact absurd rfl ((h.settled t _ k hk).2.2 w n hn)

variable [DecidableEq τ]

theorem stands_of_visible (hv : st.visible t i = some r) : st.Stands i r := by
  rcases st.visible_cases t i with ⟨r', hp, hv'⟩ | ⟨-, hv'⟩
  · rw [hv'] at hv
    cases hv
    exact Or.inr ⟨t, hp⟩
  · exact Or.inl (hv' ▸ hv)

theorem heir_of_visible (h : Lineage rights part st new facts) (hv : st.visible t i = some r) :
    Heir rights (st.base.row i) r := by
  rcases st.visible_cases t i with ⟨r', hp, hv'⟩ | ⟨-, hv'⟩
  · rw [hv'] at hv
    cases hv
    exact h.heirs i t _ hp
  · rw [← hv', hv]
    exact Heir.self r

/-- An answer shows rows that stand. -/
theorem query (h : Lineage rights part st new facts) (hpart : Preserves rights part) (t : τ) :
    Lineage rights part st new
      (Function.update facts t (facts t ∪ shown part (st.view t).rows)) where
  heirs := h.heirs
  added := h.added
  fresh := h.fresh
  settled w i k hk := by
    have hold : (i, k) ∈ facts w ∨ (w = t ∧ (i, k) ∈ shown part (st.view t).rows) := by
      by_cases hw : w = t
      · subst hw
        rw [Function.update_self] at hk
        exact hk.imp_right fun hk => ⟨rfl, hk⟩
      · rw [Function.update_of_ne hw] at hk
        exact Or.inl hk
    rcases hold with hk | ⟨-, r, hr, heq⟩
    · exact h.settled w i k hk
    · obtain ⟨rfl, rfl⟩ := Prod.mk.inj heq
      have hst : st.Stands (σ.rowId r) r := stands_of_visible (Db.mem_rows.mp hr)
      refine ⟨Store.lt_of_stands hst, fun r' hr' => h.part_eq hpart hr' hst, ?_⟩
      intro v n hn hid
      exact (h.fresh v n hn).2.1 r (hid ▸ hst)

/-- A process takes an identifier for a new row. -/
theorem add (h : Lineage rights part st new facts) {row : ℕ → σ.Row}
    (keyed : ∀ i, σ.rowId (row i) = i) (hadds : ∀ i, (rights t).adds (row i)) :
    Lineage rights part (st.reserve (st.base.next + 1))
      (Function.update new t (new t ++ [row st.base.next])) facts := by
  have hnext : st.base.next ≤ (st.reserve (st.base.next + 1)).base.next :=
    le_max_left _ _
  have hmem : ∀ {w n}, n ∈ Function.update new t (new t ++ [row st.base.next]) w →
      n ∈ new w ∨ (w = t ∧ n = row st.base.next) := by
    intro w n hn
    by_cases hw : w = t
    · subst hw
      rw [Function.update_self] at hn
      exact (List.mem_append.mp hn).imp_right fun hn => ⟨rfl, List.mem_singleton.mp hn⟩
    · rw [Function.update_of_ne hw] at hn
      exact Or.inl hn
  have hnone : ∀ r, ¬st.Stands st.base.next r := fun r hr => (Store.lt_of_stands hr).false
  refine ⟨h.heirs, ?_, ?_, ?_⟩
  · intro w n hn
    rcases hmem hn with hn | ⟨rfl, rfl⟩
    · exact h.added w n hn
    · exact hadds _
  · intro w n hn
    rcases hmem hn with hold | ⟨rfl, rfl⟩
    · obtain ⟨hlt, hno, hown⟩ := h.fresh w n hold
      refine ⟨hlt.trans_le hnext, hno, fun v m hm hid => ?_⟩
      rcases hmem hm with hm | ⟨rfl, rfl⟩
      · exact hown v m hm hid
      · rw [keyed] at hid
        omega
    · rw [keyed]
      refine ⟨?_, hnone, fun v m hm hid => ?_⟩
      · exact lt_of_lt_of_le (Nat.lt_succ_self _) (le_max_right _ _)
      rcases hmem hm with hm | ⟨rfl, -⟩
      · have := (h.fresh v m hm).1
        omega
      · rfl
  · intro w i k hk
    obtain ⟨hlt, hpart, hne⟩ := h.settled w i k hk
    refine ⟨hlt.trans_le hnext, hpart, fun v n hn => ?_⟩
    rcases hmem hn with hn | ⟨-, rfl⟩
    · exact hne v n hn
    · rw [keyed]
      omega

/-- One row of a bulk update. -/
theorem hit (h : Lineage rights part st new facts) (hpart : Preserves rights part) {u : σ.Update}
    (hv : st.visible t i = some r) (hw : (rights t).writes r (σ.set u r)) :
    Lineage rights part (st.put t (σ.set u r)) new facts := by
  have hst := stands_of_visible hv
  have hid : σ.rowId (σ.set u r) = i := (σ.rowId_set u r).trans (Store.rowId_of_stands hst)
  have hnext : st.base.next ≤ (st.put t (σ.set u r)).base.next := le_max_left _ _
  have hold : ∀ {j v}, (st.put t (σ.set u r)).Stands j v →
      st.Stands j v ∨ (j = i ∧ v = σ.set u r) := by
    rintro j v (hb | ⟨w, hp⟩)
    · exact Or.inl (Or.inl hb)
    · rw [Store.put_pending, hid] at hp
      split at hp
      · rename_i hj
        cases hp
        exact Or.inr ⟨hj, rfl⟩
      · exact Or.inl (Or.inr ⟨w, hp⟩)
  have hne : ∀ w, ∀ n ∈ new w, σ.rowId n ≠ i := fun w n hn hn' =>
    (h.fresh w n hn).2.1 r (hn' ▸ hst)
  refine ⟨?_, h.added, ?_, ?_⟩
  · intro j w v hp
    rw [Store.put_pending, hid] at hp
    split at hp
    · rename_i hj
      cases hp
      rw [Store.put_base_row, hj]
      exact (h.heir_of_visible hv).descends (.single ⟨t, hw⟩)
    · exact h.heirs j w v hp
  · intro w n hn
    obtain ⟨hlt, hno, hown⟩ := h.fresh w n hn
    refine ⟨hlt.trans_le hnext, fun v hv' => ?_, hown⟩
    rcases hold hv' with hv' | ⟨hj, -⟩
    · exact hno v hv'
    · exact hne w n hn hj
  · intro w j k hk
    obtain ⟨hlt, hpart', hnew⟩ := h.settled w j k hk
    refine ⟨hlt.trans_le hnext, fun v hv' => ?_, hnew⟩
    rcases hold hv' with hv' | ⟨rfl, rfl⟩
    · exact hpart' v hv'
    · exact (hpart t _ _ hw).trans (hpart' r hst)

/-- What stands after a flush stood before, came of what the transaction saw, or was new. -/
theorem stands_of_flush {s : Session σ} (hf : st.flush t s = some (.ok st'))
    (hr : st'.Stands i r) :
    st.Stands i r ∨ (∃ r₁, st.visible t i = some r₁ ∧ r = s.apply r₁) ∨
      ∃ n ∈ s.new, σ.rowId n = i ∧ r = s.apply n := by
  obtain ⟨db, hdb, hvis⟩ := Store.flush_visible hf
  rcases hr with hb | ⟨w, hp⟩
  · rw [Store.flush_base_row hf] at hb
    exact Or.inl (Or.inl hb)
  by_cases hw : w = t
  · subst hw
    have hrow : db.row i = some r := by rw [← hvis, Store.visible_of_pending hp]
    cases hv : st.visible w i with
    | some r₁ =>
      rw [Db.flush_row_of_some hdb hv] at hrow
      cases hrow
      exact Or.inr (Or.inl ⟨r₁, rfl, rfl⟩)
    | none => exact Or.inr (Or.inr (Db.flush_row_of_none hdb hv hrow))
  · exact Or.inl (Or.inr ⟨w, (Store.flush_pending_of_ne hf hw i r).mp hp⟩)

/-- A flush of a session within the rights. -/
theorem flush (h : Lineage rights part st new facts) (hpart : Preserves rights part)
    {s : Session σ} (hnew : s.new = new t)
    (hpatches : ∀ p ∈ s.patches, (rights t).Covers part (facts t) (.assign p))
    (hf : st.flush t s = some (.ok st')) :
    Lineage rights part st' (Function.update new t []) facts := by
  have hnext : st.base.next ≤ st'.base.next := by
    obtain ⟨db, -, rfl⟩ := Store.flush_eq_ok hf
    exact le_max_left _ _
  have happly : ∀ {r}, Fits part (facts t) r → Descends rights r (s.apply r) :=
    fun hr => descends_apply hpart hpatches hr
  -- the rows still new belong to other sessions
  have hmem : ∀ {w n}, n ∈ Function.update new t [] w → w ≠ t ∧ n ∈ new w := by
    intro w n hn
    by_cases hw : w = t
    · subst hw
      rw [Function.update_self] at hn
      cases hn
    · rw [Function.update_of_ne hw] at hn
      exact ⟨hw, hn⟩
  refine ⟨?_, fun w n hn => h.added w n (hmem hn).2, ?_, ?_⟩
  · intro i w r hp
    rw [Store.flush_base_row hf]
    by_cases hw : w = t
    · subst hw
      obtain ⟨db, hdb, hvis⟩ := Store.flush_visible hf
      have hrow : db.row i = some r := by rw [← hvis, Store.visible_of_pending hp]
      cases hv : st.visible w i with
      | some r₁ =>
        rw [Db.flush_row_of_some hdb hv] at hrow
        cases hrow
        exact (h.heir_of_visible hv).descends (happly (h.fits (stands_of_visible hv)))
      | none =>
        obtain ⟨n, hn, rfl, rfl⟩ := Db.flush_row_of_none hdb hv hrow
        rw [hnew] at hn
        have hnone : st.base.row (σ.rowId n) = none := by
          cases hb : st.base.row (σ.rowId n) with
          | none => rfl
          | some r₀ => exact absurd (Or.inl hb) ((h.fresh w n hn).2.1 r₀)
        rw [hnone]
        exact ⟨w, n, h.added w n hn, happly (h.fits_new hn)⟩
    · exact h.heirs i w r ((Store.flush_pending_of_ne hf hw i r).mp hp)
  · intro w n hn
    obtain ⟨hw, hn⟩ := hmem hn
    obtain ⟨hlt, hno, hown⟩ := h.fresh w n hn
    refine ⟨hlt.trans_le hnext, fun r hr => ?_, fun v m hm => hown v m (hmem hm).2⟩
    rcases stands_of_flush hf hr with hr | ⟨r₁, hv, -⟩ | ⟨m, hm, hid, -⟩
    · exact hno r hr
    · exact hno r₁ (stands_of_visible hv)
    · exact hw (hown t m (hnew ▸ hm) hid).symm
  · intro w i k hk
    obtain ⟨hlt, hk', hne⟩ := h.settled w i k hk
    refine ⟨hlt.trans_le hnext, fun r hr => ?_, fun v n hn => hne v n (hmem hn).2⟩
    rcases stands_of_flush hf hr with hr | ⟨r₁, hv, rfl⟩ | ⟨n, hn, hid, -⟩
    · exact hk' r hr
    · have hst := stands_of_visible hv
      exact ((happly (h.fits hst)).part_eq hpart).trans (hk' r₁ hst)
    · exact absurd hid (hne t n (hnew ▸ hn))

/-- The end of a transaction leaves the versions of the others. -/
theorem stands_of_publish (hr : (st.publish t).Stands i r) : st.Stands i r := by
  rcases hr with hb | ⟨w, hp⟩
  · exact stands_of_visible hb
  · exact Or.inr ⟨w, (Store.publish_pending_eq_some.mp hp).1⟩

theorem publish (h : Lineage rights part st new facts) :
    Lineage rights part (st.publish t) new facts where
  heirs i w r hp := by
    obtain ⟨hp, hw⟩ := Store.publish_pending_eq_some.mp hp
    rw [Store.publish_base_row, Store.visible_of_not_pending]
    · exact h.heirs i w r hp
    · intro v hv
      rw [hp] at hv
      cases hv
      exact hw rfl
  added := h.added
  fresh w n hn := by
    obtain ⟨hlt, hno, hown⟩ := h.fresh w n hn
    exact ⟨hlt, fun r hr => hno r (stands_of_publish hr), hown⟩
  settled w i k hk := by
    obtain ⟨hlt, hpart, hne⟩ := h.settled w i k hk
    exact ⟨hlt, fun r hr => hpart r (stands_of_publish hr), hne⟩

theorem discard (h : Lineage rights part st new facts) :
    Lineage rights part (st.discard t) new facts := by
  have hold : ∀ {i r}, (st.discard t).Stands i r → st.Stands i r := by
    rintro i r (hb | ⟨w, hp⟩)
    · exact Or.inl hb
    · exact Or.inr ⟨w, (Store.publish_pending_eq_some.mp hp).1⟩
  refine ⟨?_, h.added, ?_, ?_⟩
  · intro i w r hp
    exact h.heirs i w r (Store.publish_pending_eq_some.mp hp).1
  · intro w n hn
    obtain ⟨hlt, hno, hown⟩ := h.fresh w n hn
    exact ⟨hlt, fun r hr => hno r (hold hr), hown⟩
  · intro w i k hk
    obtain ⟨hlt, hpart, hne⟩ := h.settled w i k hk
    exact ⟨hlt, fun r hr => hpart r (hold hr), hne⟩

end Lineage

/-! ## Succession of contents -/

/-- The rows of the second content come of those of the first, or of rows that were rightly added. -/
structure Follows (rights : τ → Rights σ) (db db' : Db σ) : Prop where
  stays : ∀ i r, db.row i = some r → ∃ r', db'.row i = some r' ∧ Descends rights r r'
  appears : ∀ i r', db.row i = none → db'.row i = some r' →
    ∃ t n, (rights t).adds n ∧ Descends rights n r'

namespace Follows

variable {rights : τ → Rights σ} {part : σ.Row → κ} {db db' db'' : Db σ}

theorem of_row_eq (h : db'.row = db.row) : Follows rights db db' where
  stays i r hr := ⟨r, by rw [h]; exact hr, .refl⟩
  appears i r' hr hr' := by
    rw [h, hr] at hr'
    cases hr'

theorem trans (h : Follows rights db db') (h' : Follows rights db' db'') :
    Follows rights db db'' where
  stays i r hr := by
    obtain ⟨r', hr', hd⟩ := h.stays i r hr
    obtain ⟨r'', hr'', hd'⟩ := h'.stays i r' hr'
    exact ⟨r'', hr'', hd.trans hd'⟩
  appears i r'' hr hr'' := by
    cases hr' : db'.row i with
    | none => exact h'.appears i r'' hr' hr''
    | some r' =>
      obtain ⟨t, n, hn, hd⟩ := h.appears i r' hr hr'
      obtain ⟨v, hv, hd'⟩ := h'.stays i r' hr'
      rw [hr''] at hv
      cases hv
      exact ⟨t, n, hn, hd.trans hd'⟩

/-- A commit publishes heirs. -/
theorem publish [DecidableEq τ] {st : Store σ τ} {new : τ → List σ.Row} {facts : τ → Facts κ}
    (h : Lineage rights part st new facts) (t : τ) : Follows rights st.base (st.publish t).base where
  stays i r hr := by
    rw [Store.publish_base_row]
    cases hv : st.visible t i with
    | some r' =>
      have hheir := h.heir_of_visible hv
      rw [hr] at hheir
      exact ⟨r', rfl, hheir⟩
    | none =>
      rcases st.visible_cases t i with ⟨r', -, hv'⟩ | ⟨-, hv'⟩
      · rw [hv] at hv'
        cases hv'
      · rw [hv, hr] at hv'
        cases hv'
  appears i r' hr hr' := by
    have hheir := h.heir_of_visible (t := t) hr'
    rw [hr] at hheir
    exact hheir

end Follows

/-! ## Runs -/

namespace Sys

variable [DecidableEq τ] {rights : τ → Rights σ} {part : σ.Row → κ} {s s' : Sys σ τ α}
  {facts : τ → Facts κ} {t : τ}

/-- The new rows of the sessions. -/
def news (s : Sys σ τ α) (t : τ) : List σ.Row := (s.proc t).session.new

/-- Every process has stayed within its rights, and what is left of its program will. -/
structure InRights (rights : τ → Rights σ) (part : σ.Row → κ) (facts : τ → Facts κ)
    (s : Sys σ τ α) : Prop where
  lineage : Lineage rights part s.store s.news facts
  patches : ∀ t, ∀ p ∈ (s.proc t).session.patches, (rights t).Covers part (facts t) (.assign p)
  entitled : ∀ t, Entitled part (rights t) (s.proc t).prog (facts t) fun _ _ => True

omit [DecidableEq τ] in
theorem inRights_start {db : Db σ} {progs : τ → Prog σ α}
    (h : ∀ t, Entitled part (rights t) (progs t) ∅ fun _ _ => True) :
    InRights rights part (fun _ => ∅) (start db progs) where
  lineage := Lineage.ofDb db
  patches _ _ hp := nomatch hp
  entitled := h

/-- Process `t` is now in the state `p` and knows `F`. -/
theorem InRights.proceed (h : InRights rights part facts s) {p : Proc σ α} {F : Facts κ}
    (hproc : s'.proc = Function.update s.proc t p)
    (hlineage : Lineage rights part s'.store (Function.update s.news t p.session.new)
      (Function.update facts t F))
    (hpatches : ∀ q ∈ p.session.patches, (rights t).Covers part F (.assign q))
    (hprog : Entitled part (rights t) p.prog F fun _ _ => True) :
    InRights rights part (Function.update facts t F) s' := by
  have hnews : s'.news = Function.update s.news t p.session.new := by
    funext w
    unfold news
    rw [hproc]
    by_cases hw : w = t
    · subst hw
      rw [Function.update_self, Function.update_self]
    · rw [Function.update_of_ne hw, Function.update_of_ne hw]
  refine ⟨hnews ▸ hlineage, ?_, ?_⟩
  · intro w q hq
    rw [hproc] at hq
    by_cases hw : w = t
    · subst hw
      rw [Function.update_self] at hq ⊢
      exact hpatches q hq
    · rw [Function.update_of_ne hw] at hq ⊢
      exact h.patches w q hq
  · intro w
    rw [hproc]
    by_cases hw : w = t
    · subst hw
      rw [Function.update_self, Function.update_self]
      exact hprog
    · rw [Function.update_of_ne hw, Function.update_of_ne hw]
      exact h.entitled w

/-- It has learned nothing. -/
theorem InRights.goOn (h : InRights rights part facts s) {p : Proc σ α}
    (hproc : s'.proc = Function.update s.proc t p)
    (hlineage : Lineage rights part s'.store (Function.update s.news t p.session.new) facts)
    (hpatches : ∀ q ∈ p.session.patches, (rights t).Covers part (facts t) (.assign q))
    (hprog : Entitled part (rights t) p.prog (facts t) fun _ _ => True) :
    InRights rights part facts s' := by
  have hfacts := h.proceed (F := facts t) hproc (by rwa [Function.update_eq_self]) hpatches hprog
  rwa [Function.update_eq_self] at hfacts

omit [DecidableEq τ] in
/-- What a process of these rights is going to do, at its next statement. -/
theorem InRights.next (h : InRights rights part facts s) {c : Stmt σ}
    {k : Except σ.Error c.Res → Prog σ α} (hp : (s.proc t).prog = .step c k) :
    (rights t).Covers part (facts t) c ∧
      (∀ e, Entitled part (rights t) (k (.error e)) (facts t) fun _ _ => True) ∧
      ∀ x G, Shows part c x G → Entitled part (rights t) (k (.ok x)) (facts t ∪ G) fun _ _ => True := by
  have hprog := h.entitled t
  rw [hp] at hprog
  exact hprog

omit [DecidableEq τ] in
/-- An answer that shows nothing. -/
theorem InRights.answered (h : InRights rights part facts s) {c : Stmt σ}
    {k : Except σ.Error c.Res → Prog σ α} (hp : (s.proc t).prog = .step c k) {x : c.Res}
    (hx : Shows part c x ∅) :
    Entitled part (rights t) (k (.ok x)) (facts t) fun _ _ => True := by
  have hk := (h.next hp).2.2 x ∅ hx
  rwa [Set.union_empty] at hk

theorem InRights.ended (h : InRights rights part facts s) {p : Prog σ α}
    (hp : Entitled part (rights t) p (facts t) fun _ _ => True) :
    InRights rights part facts (s.abort t p) := by
  refine h.goOn (p := { prog := p }) rfl (h.lineage.discard.weaken fun w => ?_) nofun hp
  by_cases hw : w = t
  · subst hw
    rw [Function.update_self]
    exact List.nil_subset _
  · rw [Function.update_of_ne hw]
    exact List.Subset.refl _

/-- **One step.** The rights are kept to, and the committed rows are followed by heirs. -/
theorem InRights.step (h : InRights rights part facts s) (hpart : Preserves rights part)
    (hs : Step s t s') :
    (∃ facts', InRights rights part facts' s') ∧ Follows rights s.store.base s'.store.base := by
  have hnews : Function.update s.news t (s.proc t).session.new = s.news :=
    Function.update_eq_self t s.news
  have hsame : Lineage rights part s.store
      (Function.update s.news t (s.proc t).session.new) facts := by
    rw [hnews]
    exact h.lineage
  cases hs with
  | @query q k hp =>
    refine ⟨⟨_, h.proceed (F := facts t ∪ shown part (s.store.view t).rows)
      (p := { prog := _, session := (s.proc t).session }) rfl ?_ ?_ ?_⟩, .of_row_eq rfl⟩
    · rw [hnews]
      exact h.lineage.query hpart t
    · exact fun p hp => (h.patches t p hp).of_subset part Set.subset_union_left
    · exact (h.next hp).2.2 _ _ ⟨_, rfl, rfl⟩
  | begin hp hc =>
    exact ⟨⟨facts, h.goOn (p := { s.proc t with cursor := some _ }) rfl hsame (h.patches t)
      (h.entitled t)⟩, .of_row_eq rfl⟩
  | @hit u k i is n r hp hc hl hv hg =>
    have hw : (rights t).writes r (σ.set u r) := (h.next hp).1 r hg
    refine ⟨⟨facts, h.goOn (p := { s.proc t with cursor := some _ }) rfl ?_ (h.patches t)
      (h.entitled t)⟩, .of_row_eq rfl⟩
    rw [hnews]
    exact h.lineage.hit hpart hv hw
  | skip hp hc hl hv =>
    exact ⟨⟨facts, h.goOn (p := { s.proc t with cursor := some _ }) rfl hsame (h.patches t)
      (h.entitled t)⟩, .of_row_eq rfl⟩
  | finish hp hc =>
    exact ⟨⟨facts, h.goOn (p := { prog := _, session := (s.proc t).session }) rfl hsame
      (h.patches t) (h.answered hp rfl)⟩, .of_row_eq rfl⟩
  | @add row keyed k hp =>
    exact ⟨⟨facts, h.goOn (p := { prog := _, session := _ }) rfl
      (h.lineage.add keyed (h.next hp).1) (h.patches t) (h.answered hp rfl)⟩, .of_row_eq rfl⟩
  | @assign p k hp =>
    refine ⟨⟨facts, h.goOn (p := { prog := _, session := _ }) rfl hsame ?_ (h.answered hp rfl)⟩,
      .of_row_eq rfl⟩
    intro q hq
    rcases List.mem_append.mp hq with hq | hq
    · exact h.patches t q hq
    · rw [List.mem_singleton.mp hq]
      exact (h.next hp).1
  | emit hp =>
    exact ⟨⟨facts, h.goOn (p := { prog := _, session := (s.proc t).session }) rfl hsame
      (h.patches t) (h.answered hp rfl)⟩, .of_row_eq rfl⟩
  | flush hp hf =>
    exact ⟨⟨facts, h.goOn (p := { prog := _ }) rfl (h.lineage.flush hpart rfl (h.patches t) hf)
      nofun (h.answered hp rfl)⟩, .of_row_eq (Store.flush_base_row hf)⟩
  | @commit k st hp hf =>
    have hl := h.lineage.flush hpart rfl (h.patches t) hf
    refine ⟨⟨facts, h.goOn (p := { prog := _ }) rfl hl.publish nofun (h.answered hp rfl)⟩, ?_⟩
    exact .trans (.of_row_eq (Store.flush_base_row hf)) (.publish hl t)
  | rollback hp => exact ⟨⟨facts, h.ended (h.answered hp rfl)⟩, .of_row_eq rfl⟩
  | raise hp => exact ⟨⟨facts, h.ended ((h.next hp).2.1 _)⟩, .of_row_eq rfl⟩

/-- **Lineage.** In a system whose processes are entitled to what they write, the committed rows at
any time are followed, whatever the schedule and the failures, by heirs. -/
theorem follows_of_reach {ok ok' : Sys σ τ α → Action τ → Prop} {db : Db σ}
    {progs : τ → Prog σ α} (hpart : Preserves rights part)
    (h : ∀ t, Entitled part (rights t) (progs t) ∅ fun _ _ => True)
    (hs : Reach step ok (start db progs) s) (hs' : Reach step ok' s s') :
    Follows rights s.store.base s'.store.base := by
  have hstart : ∃ facts, InRights rights part facts s := by
    refine hs.invariant (P := fun s => ∃ facts, InRights rights part facts s)
      ⟨_, inRights_start h⟩ ?_
    rintro s₁ a s₂ ⟨facts, h₁⟩ - hstep
    exact (h₁.step hpart (step_cases hstep)).1
  have hrun : (∃ facts, InRights rights part facts s') ∧
      Follows rights s.store.base s'.store.base := by
    refine hs'.invariant (P := fun s' => (∃ facts, InRights rights part facts s') ∧
      Follows rights s.store.base s'.store.base) ⟨hstart, .of_row_eq rfl⟩ ?_
    rintro s₁ a s₂ ⟨⟨facts, h₁⟩, hf⟩ - hstep
    obtain ⟨h₂, hf'⟩ := h₁.step hpart (step_cases hstep)
    exact ⟨h₂, hf.trans hf'⟩
  exact hrun.2

end Sys

end TxStore
