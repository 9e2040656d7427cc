import ApiTemplate.TxStore.ReadCommitted
import Mathlib.Data.Fintype.Basic
import Mathlib.Data.Set.Subsingleton

/-!
# One live row per key

Some rows are live under a key, and a program that adds a live row first clears the key by a bulk
update of the live rows it sees. Under READ COMMITTED this keeps one live row per key along the runs
in which nobody begins to clear a key while another open transaction has begun to, or while the
session still holds a live row that was not flushed (`Orderly`).

Per key, a transaction is outside until it begins to clear it, and inside from then on. Outside it
sees no live row that is not committed; inside it sees or holds at most one live row, and the
committed ones cannot grow, since all others are outside.
-/

namespace TxStore

/-- The key under which a row is live, and the updates that clear one. -/
structure LiveRows (σ : Schema) (κ : Type) where
  key : σ.Row → Option κ
  clears : σ.Update → Option κ
  guard_of_key : ∀ u r k, clears u = some k → key r = some k → σ.guard u r = true
  key_set_of_clears : ∀ u r k, clears u = some k → key (σ.set u r) ≠ some k
  key_set : ∀ u r k, key (σ.set u r) = some k → key r = some k
  key_patch : ∀ p r k, key (σ.patch p r) = some k → key r = some k

namespace LiveRows

variable {σ : Schema} {τ α β κ : Type} (l : LiveRows σ κ)

/-- Where the live rows of a key are. -/
def liveAt (rows : ℕ → Option σ.Row) (k : κ) : Set ℕ :=
  {i | ∃ r, rows i = some r ∧ l.key r = some k}

/-- The identifiers of the live rows of a key among some new rows. -/
def liveNew (new : List σ.Row) (k : κ) : Set ℕ :=
  {i | ∃ r ∈ new, σ.rowId r = i ∧ l.key r = some k}

/-- The deed begins to clear the key. -/
def Begins (k : κ) : Deed σ → Prop
  | .began u => l.clears u = some k
  | .hit _ _ => False

/-- Some of the deeds begins to clear the key. -/
def Begun (ds : List (Deed σ)) (k : κ) : Prop := ∃ d ∈ ds, l.Begins k d

instance [DecidableEq κ] (k : κ) : (d : Deed σ) → Decidable (l.Begins k d)
  | .began u => inferInstanceAs (Decidable (l.clears u = some k))
  | .hit _ _ => inferInstanceAs (Decidable False)

instance [DecidableEq κ] (ds : List (Deed σ)) (k : κ) : Decidable (l.Begun ds k) :=
  inferInstanceAs (Decidable (∃ d ∈ ds, l.Begins k d))

theorem not_begun_nil (k : κ) : ¬l.Begun [] k := by
  rintro ⟨d, hd, -⟩
  cases hd

theorem begun_append_began {ds : List (Deed σ)} {u : σ.Update} {k : κ} :
    l.Begun (ds ++ [.began u]) k ↔ l.Begun ds k ∨ l.clears u = some k := by
  unfold Begun
  constructor
  · rintro ⟨d, hd, hb⟩
    rcases List.mem_append.mp hd with hd | hd
    · exact Or.inl ⟨d, hd, hb⟩
    · obtain rfl := List.mem_singleton.mp hd
      exact Or.inr hb
  · rintro (⟨d, hd, hb⟩ | hb)
    · exact ⟨d, List.mem_append_left _ hd, hb⟩
    · exact ⟨_, List.mem_append_right _ (List.mem_singleton_self _), hb⟩

theorem begun_append_hit {ds : List (Deed σ)} {u : σ.Update} {i : ℕ} {k : κ} :
    l.Begun (ds ++ [.hit u i]) k ↔ l.Begun ds k := by
  unfold Begun
  constructor
  · rintro ⟨d, hd, hb⟩
    rcases List.mem_append.mp hd with hd | hd
    · exact ⟨d, hd, hb⟩
    · obtain rfl := List.mem_singleton.mp hd
      exact hb.elim
  · rintro ⟨d, hd, hb⟩
    exact ⟨d, List.mem_append_left _ hd, hb⟩

theorem key_apply {s : Session σ} {r : σ.Row} {k : κ} (h : l.key (s.apply r) = some k) :
    l.key r = some k := by
  unfold Session.apply at h
  generalize s.patches = ps at h
  induction ps generalizing r with
  | nil => exact h
  | cons p ps ih =>
    have hp : l.key (Db.patched p r) = some k := ih h
    unfold Db.patched at hp
    split at hp
    · exact l.key_patch p r k hp
    · exact hp

/-! ## Programs that clear before they add -/

/-- A live row may be added only if its key has just been cleared. -/
def Allowed (cleared : Option κ) : Stmt σ → Prop
  | .add row _ => ∀ i k, l.key (row i) = some k → cleared = some k
  | _ => True

/-- The key a statement has cleared. -/
def next : (s : Stmt σ) → Except σ.Error s.Res → Option κ
  | .update u, .ok _ => l.clears u
  | _, _ => none

/-- Whenever the program adds a live row, its last statement has cleared the key. -/
def Disciplined : Option κ → Prog σ α → Prop
  | _, .done _ => True
  | cleared, .step s k => l.Allowed cleared s ∧ ∀ r, Disciplined (l.next s r) (k r)

variable {l} in
theorem Disciplined.onExit {cleared : Option κ} {p : Prog σ α}
    {f : Except σ.Error α → Prog σ β} (h : l.Disciplined cleared p)
    (hf : ∀ cleared r, l.Disciplined cleared (f r)) : l.Disciplined cleared (p.onExit f) := by
  induction p generalizing cleared with
  | done r => exact hf cleared r
  | step s k ih => exact ⟨h.1, fun r => ih r (h.2 r)⟩

variable {l} in
theorem Disciplined.bind {cleared : Option κ} {p : Prog σ α} {f : α → Prog σ β}
    (h : l.Disciplined cleared p) (hf : ∀ cleared a, l.Disciplined cleared (f a)) :
    l.Disciplined cleared (p >>= f) := by
  refine h.onExit fun cleared r => ?_
  cases r with
  | ok a => exact hf cleared a
  | error e => trivial

variable {l} in
theorem Disciplined.withUow {cleared : Option κ} {body : Prog σ α}
    (h : l.Disciplined cleared body) : l.Disciplined cleared (withUow body) := by
  refine h.onExit fun cleared r => ?_
  cases r with
  | ok a => exact ⟨trivial, fun c => ⟨trivial, fun x => trivial⟩⟩
  | error e => exact ⟨trivial, fun c => ⟨trivial, fun x => trivial⟩⟩

/-! ## One process -/

/-- At most one live row is seen or held back in the session. -/
def Inside (view : ℕ → Option σ.Row) (new : List σ.Row) (k : κ) : Prop :=
  (l.liveNew new k = ∅ ∧ (l.liveAt view k).Subsingleton) ∨
    (l.liveAt view k = ∅ ∧ (l.liveNew new k).Subsingleton)

/-- No live row is seen or held back. -/
def Cleared (view : ℕ → Option σ.Row) (new : List σ.Row) (k : κ) : Prop :=
  l.liveAt view k = ∅ ∧ l.liveNew new k = ∅

/-- What holds of a process with the deeds `ds` that sees the rows `view`. -/
structure Good (base view : ℕ → Option σ.Row) (p : Proc σ α) (ds : List (Deed σ)) : Prop where
  outside : ∀ k, ¬l.Begun ds k →
    l.liveAt view k ⊆ l.liveAt base k ∧ l.liveNew p.session.new k = ∅
  inside : ∀ k, l.Begun ds k → l.Inside view p.session.new k
  phase : ∃ cleared, l.Disciplined cleared p.prog ∧
    ∀ k, cleared = some k → l.Begun ds k ∧ l.Cleared view p.session.new k
  /-- In the middle of clearing, the live rows left are still to be visited. -/
  clearing : ∀ u cont is n k, p.prog = .step (.update u) cont → p.cursor = some (is, n) →
    l.clears u = some k →
    l.Begun ds k ∧ l.liveAt view k ⊆ {i | i ∈ is} ∧ l.liveNew p.session.new k = ∅

variable {l} {base base' view view' : ℕ → Option σ.Row} {p : Proc σ α} {ds : List (Deed σ)}
  {new : List σ.Row} {k : κ}

theorem Inside.mono (h : l.Inside view new k) (hsub : l.liveAt view' k ⊆ l.liveAt view k) :
    l.Inside view' new k := by
  rcases h with ⟨hnew, hview⟩ | ⟨hview, hnew⟩
  · exact Or.inl ⟨hnew, hview.anti hsub⟩
  · exact Or.inr ⟨Set.subset_eq_empty hsub hview, hnew⟩

/-- The rows that a process sees may lose live rows. -/
theorem Good.mono (h : l.Good base view p ds)
    (hin : ∀ k, l.Begun ds k → l.liveAt view' k ⊆ l.liveAt view k)
    (hout : ∀ k, ¬l.Begun ds k → l.liveAt view' k ⊆ l.liveAt base' k) :
    l.Good base' view' p ds where
  outside k hk := ⟨hout k hk, (h.outside k hk).2⟩
  inside k hk := (h.inside k hk).mono (hin k hk)
  phase := by
    obtain ⟨cleared, hd, hc⟩ := h.phase
    refine ⟨cleared, hd, fun k hk => ?_⟩
    obtain ⟨hb, hview, hnew⟩ := hc k hk
    exact ⟨hb, Set.subset_eq_empty (hin k hb) hview, hnew⟩
  clearing u cont is n k hp hcur hu := by
    obtain ⟨hb, hsub, hnew⟩ := h.clearing u cont is n k hp hcur hu
    exact ⟨hb, (hin k hb).trans hsub, hnew⟩

/-- A statement that changes neither the rows nor the new rows of the session. -/
theorem Good.resume (h : l.Good base view p ds) {c : Stmt σ}
    {cont : Except σ.Error c.Res → Prog σ α} (hp : p.prog = .step c cont)
    (r : Except σ.Error c.Res) {session : Session σ} (hs : session.new = p.session.new)
    (hnext : ∀ k, l.next c r = some k → l.Begun ds k ∧ l.Cleared view p.session.new k) :
    l.Good base view { prog := cont r, session := session } ds where
  outside k hk := by
    rw [hs]
    exact h.outside k hk
  inside k hk := by
    rw [hs]
    exact h.inside k hk
  phase := by
    obtain ⟨cleared, hd, -⟩ := h.phase
    rw [hp] at hd
    refine ⟨l.next c r, hd.2 r, fun k hk => ?_⟩
    rw [hs]
    exact hnext k hk
  clearing u cont is n k _ hcur := by cases hcur

/-- A process without an open transaction. -/
theorem good_of_nil {prog : Prog σ α} (h : l.Disciplined none prog)
    (hsub : ∀ k, l.liveAt view k ⊆ l.liveAt base k) : l.Good base view { prog := prog } [] where
  outside k _ := by
    refine ⟨hsub k, Set.eq_empty_iff_forall_notMem.mpr ?_⟩
    rintro i ⟨r, hr, -⟩
    cases hr
  inside k hk := absurd hk (l.not_begun_nil k)
  phase := ⟨none, h, fun k hk => by cases hk⟩
  clearing u cont is n k _ hcur := by cases hcur

/-! ## The steps of a process -/

section Steps

variable [DecidableEq τ] {s s' : Sys σ τ α} {t w : τ}

variable (l) in
/-- `Good` of a process of a system. -/
abbrev GoodAt (s : Sys σ τ α) (t : τ) : Prop :=
  l.Good s.store.base.row (s.store.visible t) (s.proc t) (s.opened t)

/-- A process that a step does not touch. -/
theorem goodAt_congr (h : l.GoodAt s w) (hb : s'.store.base.row = s.store.base.row)
    (hv : s'.store.visible w = s.store.visible w) (hp : s'.proc w = s.proc w)
    (ho : s'.opened w = s.opened w) : l.GoodAt s' w := by
  unfold GoodAt
  rw [hb, hv, hp, ho]
  exact h

/-- What a flush makes visible of a key was visible or new. -/
theorem liveAt_flush {st st' : Store σ τ} {session : Session σ}
    (hf : st.flush t session = some (.ok st')) (k : κ) :
    l.liveAt (st'.visible t) k ⊆ l.liveAt (st.visible t) k ∪ l.liveNew session.new k := by
  rintro i ⟨r, hr, hk⟩
  obtain ⟨db, hdb, hvis⟩ := Store.flush_visible hf
  rw [hvis] at hr
  cases hv : st.visible t i with
  | some r₀ =>
    rw [Db.flush_row_of_some hdb hv] at hr
    cases hr
    exact Or.inl ⟨r₀, hv, l.key_apply hk⟩
  | none =>
    obtain ⟨n, hn, hid, rfl⟩ := Db.flush_row_of_none hdb hv hr
    exact Or.inr ⟨n, hn, hid, l.key_apply hk⟩

theorem Inside.flush {st st' : Store σ τ} {session : Session σ}
    (h : l.Inside (st.visible t) session.new k) (hf : st.flush t session = some (.ok st')) :
    (l.liveAt (st'.visible t) k).Subsingleton := by
  have hsub := l.liveAt_flush hf k
  rcases h with ⟨hnew, hview⟩ | ⟨hview, hnew⟩
  · rw [hnew, Set.union_empty] at hsub
    exact hview.anti hsub
  · rw [hview, Set.empty_union] at hsub
    exact hnew.anti hsub

theorem liveNew_nil (k : κ) : l.liveNew [] k = ∅ := by
  rw [Set.eq_empty_iff_forall_notMem]
  rintro i ⟨r, hr, -⟩
  cases hr

/-- The flush of a process, followed by the rest of its program. -/
theorem Good.flush {st st' : Store σ τ} {prog : Prog σ α}
    (h : l.Good st.base.row (st.visible t) p ds)
    (hf : st.flush t p.session = some (.ok st')) (hd : l.Disciplined none prog) :
    l.Good st'.base.row (st'.visible t) { prog := prog } ds where
  outside k hk := by
    obtain ⟨hview, hnew⟩ := h.outside k hk
    have hsub := l.liveAt_flush hf k
    rw [hnew, Set.union_empty] at hsub
    rw [Store.flush_base_row hf]
    exact ⟨hsub.trans hview, l.liveNew_nil k⟩
  inside k hk := Or.inl ⟨l.liveNew_nil k, (h.inside k hk).flush hf⟩
  phase := ⟨none, hd, fun k hk => by cases hk⟩
  clearing u cont is n k _ hcur := by cases hcur

/-- The rest of a program after a statement that clears nothing. -/
theorem Good.disciplined (h : l.Good base view p ds) {c : Stmt σ}
    {cont : Except σ.Error c.Res → Prog σ α} (hp : p.prog = .step c cont)
    (r : Except σ.Error c.Res) (hnext : l.next c r = none) : l.Disciplined none (cont r) := by
  obtain ⟨cleared, hd, -⟩ := h.phase
  rw [hp] at hd
  rw [← hnext]
  exact hd.2 r

/-- A process that begins a bulk update. -/
theorem Good.begin (h : l.Good base view p ds) {u : σ.Update}
    {cont : Except σ.Error ℕ → Prog σ α} (hp : p.prog = .step (.update u) cont)
    (hbase : ∀ k, (l.liveAt base k).Subsingleton) {db : Db σ} (hdb : db.row = view)
    (hnew : ∀ k, l.clears u = some k → l.liveNew p.session.new k = ∅) :
    l.Good base view { p with cursor := some (db.matching u, 0) } (ds ++ [.began u]) where
  outside k hk := h.outside k fun hb => hk (l.begun_append_began.mpr (Or.inl hb))
  inside k hk := by
    by_cases hb : l.Begun ds k
    · exact h.inside k hb
    · obtain ⟨hview, hnew⟩ := h.outside k hb
      exact Or.inl ⟨hnew, (hbase k).anti hview⟩
  phase := by
    obtain ⟨cleared, hd, hc⟩ := h.phase
    exact ⟨cleared, hd, fun k hk =>
      ⟨l.begun_append_began.mpr (Or.inl (hc k hk).1), (hc k hk).2⟩⟩
  clearing u' cont' is n k hp' hcur hu := by
    rw [hp] at hp'
    cases hp'
    cases hcur
    refine ⟨l.begun_append_began.mpr (Or.inr hu), ?_, hnew k hu⟩
    rintro i ⟨r, hr, hk⟩
    rw [← hdb] at hr
    exact Db.mem_matching.mpr ⟨r, hr, l.guard_of_key u r k hu hk⟩

/-- A process that visits a row and leaves nothing live of the key it clears there. -/
theorem Good.visit (h : l.Good base view p ds) {u : σ.Update}
    {cont : Except σ.Error ℕ → Prog σ α} (hp : p.prog = .step (.update u) cont)
    {i : ℕ} {is : List ℕ} {n n' : ℕ} (hcur : p.cursor = some (i :: is, n))
    {ds' : List (Deed σ)} (hds : ∀ k, l.Begun ds' k ↔ l.Begun ds k)
    (hsub : ∀ k, l.liveAt view' k ⊆ l.liveAt view k)
    (hi : ∀ k, l.clears u = some k → i ∉ l.liveAt view' k) :
    l.Good base view' { p with cursor := some (is, n') } ds' where
  outside k hk := by
    rw [hds] at hk
    exact ⟨(hsub k).trans (h.outside k hk).1, (h.outside k hk).2⟩
  inside k hk := (h.inside k ((hds k).mp hk)).mono (hsub k)
  phase := by
    obtain ⟨cleared, hd, hc⟩ := h.phase
    refine ⟨cleared, hd, fun k hk => ?_⟩
    obtain ⟨hb, hview, hnew⟩ := hc k hk
    exact ⟨(hds k).mpr hb, Set.subset_eq_empty (hsub k) hview, hnew⟩
  clearing u' cont' is' m k hp' hcur' hu := by
    obtain ⟨hb, hvisit, hnew⟩ := h.clearing u' cont' _ _ k hp' hcur hu
    rw [hp] at hp'
    cases hp'
    cases hcur'
    refine ⟨(hds k).mpr hb, fun j hj => ?_, hnew⟩
    rcases List.mem_cons.mp (hvisit (hsub k hj)) with rfl | hmem
    · exact absurd hj (hi k hu)
    · exact hmem

/-- A process that adds a row. -/
theorem Good.add (h : l.Good base view p ds) {row : ℕ → σ.Row} {keyed : ∀ i, σ.rowId (row i) = i}
    {cont : Except σ.Error ℕ → Prog σ α} (hp : p.prog = .step (.add row keyed) cont) (i : ℕ) :
    l.Good base view { prog := cont (.ok i)
                       session := { p.session with new := p.session.new ++ [row i] } } ds := by
  obtain ⟨cleared, hd, hc⟩ := h.phase
  rw [hp] at hd
  -- a key of the new row has just been cleared
  have hkey : ∀ k, l.key (row i) = some k → l.Begun ds k ∧ l.Cleared view p.session.new k :=
    fun k hk => hc k (hd.1 i k hk)
  have hnew : ∀ k, l.key (row i) ≠ some k →
      l.liveNew (p.session.new ++ [row i]) k = l.liveNew p.session.new k := by
    intro k hk
    ext j
    constructor
    · rintro ⟨r, hr, hid, hkr⟩
      rcases List.mem_append.mp hr with hr | hr
      · exact ⟨r, hr, hid, hkr⟩
      · obtain rfl := List.mem_singleton.mp hr
        exact absurd hkr hk
    · rintro ⟨r, hr, hid, hkr⟩
      exact ⟨r, List.mem_append_left _ hr, hid, hkr⟩
  refine ⟨fun k hk => ?_, fun k hk => ?_, ⟨none, hd.2 _, fun k hk => by cases hk⟩,
    fun u cont is n k _ hcur => by cases hcur⟩
  · have hne : l.key (row i) ≠ some k := fun hkr => hk (hkey k hkr).1
    rw [hnew k hne]
    exact h.outside k hk
  · by_cases hkr : l.key (row i) = some k
    · obtain ⟨-, hview, hempty⟩ := hkey k hkr
      refine Or.inr ⟨hview, ?_⟩
      have hsub : l.liveNew (p.session.new ++ [row i]) k ⊆ {i} := by
        rintro j ⟨r, hr, hid, hkr'⟩
        rcases List.mem_append.mp hr with hr | hr
        · have hj : j ∈ l.liveNew p.session.new k := ⟨r, hr, hid, hkr'⟩
          rw [hempty] at hj
          exact hj.elim
        · obtain rfl := List.mem_singleton.mp hr
          exact hid.symm.trans (keyed i)
      exact Set.subsingleton_singleton.anti hsub
    · rw [show Session.new _ = p.session.new ++ [row i] from rfl]
      unfold Inside
      rw [hnew k hkr]
      exact h.inside k hk

end Steps

/-! ## Runs -/

section Runs

variable {s s' : Sys σ τ α} {t w : τ}

variable (l) in
/-- The key that process `t` is about to begin to clear. -/
def about (s : Sys σ τ α) (t : τ) : Option κ :=
  match (s.proc t).prog, (s.proc t).cursor with
  | .step (.update u) _, none => l.clears u
  | _, _ => none

variable (l) in
/-- Nobody begins to clear a key that another open transaction has begun to clear, or of which the
own session still holds a live row. -/
def Orderly (s : Sys σ τ α) : Action τ → Prop
  | .exec t => ∀ k ∈ l.about s t,
    (∀ r ∈ (s.proc t).session.new, l.key r ≠ some k) ∧ ∀ w, w ≠ t → ¬l.Begun (s.opened w) k
  | .fail _ => True

instance [DecidableEq κ] [DecidableEq τ] [Fintype τ] (s : Sys σ τ α) :
    (a : Action τ) → Decidable (l.Orderly s a)
  | .exec t => inferInstanceAs (Decidable (∀ k ∈ l.about s t,
    (∀ r ∈ (s.proc t).session.new, l.key r ≠ some k) ∧ ∀ w, w ≠ t → ¬l.Begun (s.opened w) k))
  | .fail _ => inferInstanceAs (Decidable True)

/-- What an orderly action says of a bulk update that begins. -/
theorem Orderly.begin {u : σ.Update} {cont : Except σ.Error ℕ → Prog σ α}
    (h : l.Orderly s (.exec t)) (hp : (s.proc t).prog = .step (.update u) cont)
    (hc : (s.proc t).cursor = none) {k : κ} (hu : l.clears u = some k) :
    l.liveNew (s.proc t).session.new k = ∅ ∧ ∀ w, w ≠ t → ¬l.Begun (s.opened w) k := by
  have habout : l.about s t = some k := by
    simp only [about, hp, hc]
    exact hu
  obtain ⟨hnew, hothers⟩ := h k habout
  refine ⟨Set.eq_empty_iff_forall_notMem.mpr ?_, hothers⟩
  rintro i ⟨r, hr, -, hk⟩
  exact hnew r hr hk

variable [DecidableEq τ]

variable (l) in
/-- The invariant of the orderly runs. -/
structure Inv (s : Sys σ τ α) : Prop where
  base : ∀ k, (l.liveAt s.store.base.row k).Subsingleton
  solo : ∀ t w k, l.Begun (s.opened t) k → l.Begun (s.opened w) k → t = w
  good : ∀ t, l.GoodAt s t

/-- A step that commits nothing keeps the invariant if its process stays good. -/
theorem Inv.of_step (h : l.Inv s) (hs : Sys.Step s t s')
    (hbase : s'.store.base.row = s.store.base.row)
    (hvis : ∀ w, w ≠ t → s'.store.visible w = s.store.visible w)
    (hsolo : ∀ k, l.Begun (s'.opened t) k →
      l.Begun (s.opened t) k ∨ ∀ w, w ≠ t → ¬l.Begun (s.opened w) k)
    (hgood : l.GoodAt s' t) : l.Inv s' := by
  have hsame : ∀ w, w ≠ t → s'.opened w = s.opened w := fun w hw => hs.opened_of_ne hw
  -- a process that shares a key with `t` is `t`
  have heq : ∀ w k, l.Begun (s'.opened t) k → l.Begun (s'.opened w) k → w = t := by
    intro w k ht hw
    by_contra hne
    rw [hsame w hne] at hw
    rcases hsolo k ht with ht | hnone
    · exact hne (h.solo w t k hw ht)
    · exact hnone w hne hw
  refine ⟨fun k => hbase ▸ h.base k, fun v w k hv hw => ?_, fun w => ?_⟩
  · by_cases hvt : v = t
    · subst hvt
      exact (heq w k hv hw).symm
    · by_cases hwt : w = t
      · subst hwt
        exact heq v k hw hv
      · rw [hsame v hvt] at hv
        rw [hsame w hwt] at hw
        exact h.solo v w k hv hw
  · by_cases hw : w = t
    · subst hw
      exact hgood
    · exact goodAt_congr (h.good w) hbase (hvis w hw) (hs.proc_of_ne hw) (hsame w hw)

/-- A step that leaves the rows, and the transaction of its process, as they are. -/
theorem Inv.of_quiet (h : l.Inv s) (hs : Sys.Step s t s')
    (hbase : s'.store.base.row = s.store.base.row)
    (hvis : ∀ w, s'.store.visible w = s.store.visible w) (ho : s'.opened t = s.opened t)
    (hgood : l.Good s.store.base.row (s.store.visible t) (s'.proc t) (s.opened t)) : l.Inv s' := by
  refine h.of_step hs hbase (fun w _ => hvis w) (fun k hk => Or.inl (ho ▸ hk)) ?_
  unfold GoodAt
  rw [hbase, hvis, ho]
  exact hgood

/-- A transaction that ends without effect. -/
theorem Inv.abort (h : l.Inv s) {prog : Prog σ α} (hs : Sys.Step s t (s.abort t prog))
    (hd : l.Disciplined none prog) : l.Inv (s.abort t prog) := by
  refine h.of_step hs rfl (fun w hw => ?_) (fun k hk => ?_) ?_
  · funext i
    rw [Sys.abort_store, Store.discard_visible, if_neg hw]
  · rw [Sys.abort_opened, Function.update_self] at hk
    exact absurd hk (l.not_begun_nil k)
  · unfold GoodAt
    rw [Sys.abort_proc, Sys.abort_opened, Function.update_self, Function.update_self]
    refine good_of_nil hd fun k => ?_
    rintro i ⟨r, hr, hk⟩
    rw [Sys.abort_store, Store.discard_visible, if_pos rfl] at hr
    exact ⟨r, hr, hk⟩

/-- A commit begins no clearing. -/
theorem begun_of_publish {prog : Prog σ α} {st : Store σ τ} {w : τ} {k : κ}
    (hw : l.Begun ((s.publish st t prog).opened w) k) : l.Begun (s.opened w) k := by
  by_cases hwt : w = t
  · subst hwt
    rw [Sys.publish_opened, Function.update_self] at hw
    exact absurd hw (l.not_begun_nil k)
  · rwa [Sys.publish_opened, Function.update_of_ne hwt] at hw

/-- The others lose no more than they did when a transaction commits. -/
theorem Inv.good_publish_of_ne (h : l.Inv s) {prog : Prog σ α} {st : Store σ τ} {w : τ} (hw : w ≠ t)
    (hf : s.store.flush t (s.proc t).session = some (.ok st))
    (houtside : ∀ k, ¬l.Begun (s.opened t) k →
      l.liveAt (st.visible t) k ⊆ l.liveAt s.store.base.row k) :
    l.GoodAt (s.publish st t prog) w := by
  have hbase : ∀ i r, st.pending i = some (w, r) → st.visible t i = s.store.base.row i := by
    intro i r hp
    rw [Store.visible_of_not_pending, Store.flush_base_row hf]
    intro r' hr'
    rw [hp] at hr'
    cases hr'
    exact hw rfl
  unfold GoodAt
  rw [Sys.publish_proc, Sys.publish_opened, Function.update_of_ne hw, Function.update_of_ne hw]
  refine (h.good w).mono (fun k hk => ?_) (fun k hk => ?_)
  · rintro i ⟨r, hr, hkr⟩
    rcases st.visible_cases w i with ⟨r', hp, -⟩ | ⟨hp, hv⟩
    · rw [Sys.publish_store, Store.publish_visible_of_pending hw hp, Option.some.injEq] at hr
      subst hr
      refine ⟨r', ?_, hkr⟩
      exact Store.visible_of_pending ((Store.flush_pending_of_ne hf hw i r').mp hp)
    · -- `w` has begun the key, so the rest `t` publishes of it was committed
      rw [Sys.publish_store, Store.publish_visible_of_not_pending hp] at hr
      have ht : ¬l.Begun (s.opened t) k := fun ht => hw (h.solo w t k hk ht)
      obtain ⟨r₀, hb, hk₀⟩ := houtside k ht ⟨r, hr, hkr⟩
      refine ⟨r₀, ?_, hk₀⟩
      rw [← Store.flush_visible_of_ne hf hw i, hv, Store.flush_base_row hf, hb]
  · rintro i ⟨r, hr, hkr⟩
    rcases st.visible_cases w i with ⟨r', hp, -⟩ | ⟨hp, -⟩
    · rw [Sys.publish_store, Store.publish_visible_of_pending hw hp, Option.some.injEq] at hr
      subst hr
      have hseen : s.store.visible w i = some r' :=
        Store.visible_of_pending ((Store.flush_pending_of_ne hf hw i r').mp hp)
      obtain ⟨r₀, hb, hk₀⟩ := ((h.good w).outside k hk).1 ⟨r', hseen, hkr⟩
      refine ⟨r₀, ?_, hk₀⟩
      rw [Sys.publish_store, Store.publish_base_row, hbase i r' hp, hb]
    · rw [Sys.publish_store, Store.publish_visible_of_not_pending hp] at hr
      exact ⟨r, hr, hkr⟩

/-- A commit: the committed live rows of a key come from the one transaction that has begun to clear
it. -/
theorem Inv.commit (h : l.Inv s) {prog : Prog σ α} {st : Store σ τ}
    (hf : s.store.flush t (s.proc t).session = some (.ok st)) (hd : l.Disciplined none prog) :
    l.Inv (s.publish st t prog) := by
  have hflushed := (h.good t).flush hf hd
  rw [Store.flush_base_row hf] at hflushed
  refine ⟨fun k => ?_, fun v w k hv hw => ?_, fun w => ?_⟩
  · by_cases hk : l.Begun (s.opened t) k
    · exact ((h.good t).inside k hk).flush hf
    · exact (h.base k).anti (hflushed.outside k hk).1
  · exact h.solo v w k (begun_of_publish hv) (begun_of_publish hw)
  · by_cases hw : w = t
    · subst hw
      unfold GoodAt
      rw [Sys.publish_proc, Sys.publish_opened, Function.update_self, Function.update_self]
      refine good_of_nil hd fun k => ?_
      rintro i ⟨r, hr, hk⟩
      refine ⟨r, ?_, hk⟩
      rw [← hr]
      exact (Store.visible_of_not_pending fun r' hr' =>
        (Store.publish_pending_eq_some.mp hr').2 rfl).symm
    · exact h.good_publish_of_ne hw hf fun k hk => (hflushed.outside k hk).1

/-- A row that is changed by a bulk update of the process. -/
theorem Inv.hit (h : l.Inv s) {u : σ.Update} {cont : Except σ.Error ℕ → Prog σ α} {i : ℕ}
    {is : List ℕ} {n : ℕ} {r : σ.Row} (hp : (s.proc t).prog = .step (.update u) cont)
    (hc : (s.proc t).cursor = some (i :: is, n)) (hl : s.store.lockedFor t i = false)
    (hv : s.store.visible t i = some r)
    (hs : Sys.Step s t (({ s with store := s.store.put t (σ.set u r) }.goto t
      { s.proc t with cursor := some (is, n + 1) }).note t (.hit u i))) :
    l.Inv (({ s with store := s.store.put t (σ.set u r) }.goto t
      { s.proc t with cursor := some (is, n + 1) }).note t (.hit u i)) := by
  have hid : σ.rowId (σ.set u r) = i := by
    rw [σ.rowId_set]
    exact (s.store.view t).keyed i r hv
  refine h.of_step hs rfl (fun w hw => ?_) (fun k hk => ?_) ?_
  · funext j
    rw [Sys.note_store, Sys.goto_store, Store.put_visible, hid]
    by_cases hj : j = i
    · subst hj
      rw [if_pos rfl, if_neg (Ne.symm hw)]
      exact (Store.visible_of_not_pending fun r' hr' =>
        hw (Store.lockedFor_eq_false.mp hl w r' hr')).symm
    · rw [if_neg hj]
  · rw [Sys.note_opened, Function.update_self] at hk
    exact Or.inl (l.begun_append_hit.mp hk)
  · unfold GoodAt
    rw [Sys.note_proc, Sys.goto_proc, Sys.note_opened, Function.update_self, Function.update_self]
    refine (h.good t).visit hp hc (fun k => l.begun_append_hit) (fun k => ?_) (fun k hu => ?_)
    · rintro j ⟨r', hr', hk⟩
      rw [Sys.note_store, Sys.goto_store, Store.put_visible, hid] at hr'
      split at hr'
      · rename_i hj
        rw [if_pos rfl] at hr'
        cases hr'
        exact ⟨r, hj ▸ hv, l.key_set u r k hk⟩
      · exact ⟨r', hr', hk⟩
    · rintro ⟨r', hr', hk⟩
      rw [Sys.note_store, Sys.goto_store, Store.put_visible, hid, if_pos rfl, if_pos rfl] at hr'
      cases hr'
      exact l.key_set_of_clears u r k hu hk

theorem Inv.exec (h : l.Inv s) (ho : l.Orderly s (.exec t)) (hs : Sys.Step s t s') :
    l.Inv s' := by
  have hstep := hs
  cases hs with
  | @query q cont hp =>
    refine h.of_quiet hstep rfl (fun _ => rfl) rfl ?_
    rw [Sys.resume_proc, Function.update_self]
    exact (h.good t).resume hp _ rfl nofun
  | @begin u cont hp hc =>
    have hbegin : ∀ k, l.clears u = some k → _ := fun k hu => ho.begin hp hc hu
    refine h.of_step hstep rfl (fun _ _ => rfl) (fun k hk => ?_) ?_
    · rw [Sys.note_opened, Function.update_self] at hk
      rcases l.begun_append_began.mp hk with hk | hu
      · exact Or.inl hk
      · exact Or.inr (hbegin k hu).2
    · unfold GoodAt
      rw [Sys.note_proc, Sys.goto_proc, Sys.note_opened, Function.update_self,
        Function.update_self]
      exact (h.good t).begin hp h.base rfl fun k hu => (hbegin k hu).1
  | hit hp hc hl hv hg => exact h.hit hp hc hl hv hstep
  | @skip u cont i is n hp hc hl hv =>
    refine h.of_quiet hstep rfl (fun _ => rfl) rfl ?_
    rw [Sys.goto_proc, Function.update_self]
    refine (h.good t).visit hp hc (fun _ => Iff.rfl) (fun _ => subset_rfl) fun k hu => ?_
    rintro ⟨r, hr, hk⟩
    have hg := hv r hr
    rw [l.guard_of_key u r k hu hk] at hg
    cases hg
  | @finish u cont n hp hc =>
    refine h.of_quiet hstep rfl (fun _ => rfl) rfl ?_
    rw [Sys.resume_proc, Function.update_self]
    refine (h.good t).resume hp _ rfl fun k hu => ?_
    obtain ⟨hb, hsub, hnew⟩ := (h.good t).clearing u cont [] n k hp hc hu
    exact ⟨hb, Set.subset_eq_empty hsub (by simp), hnew⟩
  | @add row keyed cont hp =>
    refine h.of_quiet hstep rfl (fun _ => rfl) rfl ?_
    rw [Sys.goto_proc, Function.update_self]
    exact (h.good t).add hp _
  | @assign p cont hp =>
    refine h.of_quiet hstep rfl (fun _ => rfl) rfl ?_
    rw [Sys.goto_proc, Function.update_self]
    exact (h.good t).resume hp _ rfl nofun
  | @emit n cont hp =>
    refine h.of_quiet hstep rfl (fun _ => rfl) rfl ?_
    rw [Sys.resume_proc, Function.update_self]
    exact (h.good t).resume hp _ rfl nofun
  | @flush cont st hp hf =>
    refine h.of_step hstep (Store.flush_base_row hf)
      (fun w hw => funext fun i => Store.flush_visible_of_ne hf hw i) (fun _ => Or.inl) ?_
    unfold GoodAt
    rw [Sys.goto_proc, Function.update_self]
    exact (h.good t).flush hf ((h.good t).disciplined hp _ rfl)
  | @commit cont st hp hf => exact h.commit hf ((h.good t).disciplined hp _ rfl)
  | @rollback cont hp => exact h.abort hstep ((h.good t).disciplined hp _ rfl)
  | @raise c cont e hp =>
    refine h.abort hstep ((h.good t).disciplined hp _ ?_)
    cases c <;> rfl

/-- **An orderly action keeps the invariant.** -/
theorem inv_step {a : Action τ} (h : l.Inv s) (ho : l.Orderly s a) (hs : s.step a = some s') :
    l.Inv s' := by
  have hstep := Sys.step_cases hs
  cases a with
  | exec t => exact h.exec ho hstep
  | fail t =>
    cases hp : (s.proc t).prog with
    | done r =>
      simp only [Sys.step, hp] at hs
      cases hs
    | step c cont =>
      simp only [Sys.step, hp] at hs
      cases hs
      refine h.abort hstep ((h.good t).disciplined hp _ ?_)
      cases c <;> rfl

/-- The first state of a system of disciplined programs. -/
theorem inv_start {db : Db σ} {progs : τ → Prog σ α}
    (hdb : ∀ k, (l.liveAt db.row k).Subsingleton) (hprogs : ∀ t, l.Disciplined none (progs t)) :
    l.Inv (.start db progs) where
  base := hdb
  solo _ _ k hk := absurd hk (l.not_begun_nil k)
  good t := good_of_nil (hprogs t) fun _ => subset_rfl

/-- **One live row.** Disciplined programs keep at most one live row per key in all orderly runs. -/
theorem subsingleton_of_reach {db : Db σ} {progs : τ → Prog σ α}
    (hdb : ∀ k, (l.liveAt db.row k).Subsingleton) (hprogs : ∀ t, l.Disciplined none (progs t))
    (h : Reach Sys.step l.Orderly (.start db progs) s) (k : κ) :
    (l.liveAt s.store.base.row k).Subsingleton :=
  (h.invariant (inv_start hdb hprogs) fun _ _ _ => inv_step).base k

end Runs

end LiveRows

end TxStore
