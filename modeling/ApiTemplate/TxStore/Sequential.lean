import ApiTemplate.TxStore.Schema

/-!
# Programs run one after another

The world of a program that has the database to itself: the committed content, the content its
open transaction sees (committed rows plus what it has flushed), the unflushed session, and what
was announced. `exec` is the effect of one statement. Between two units of work the world is
`Idle`: nothing is open and nothing is unflushed, so the committed content is all there is.
-/

namespace TxStore

/-- The state of a program that runs alone. -/
structure World (σ : Schema) where
  committed : Db σ
  /-- What a statement of the open transaction sees. -/
  view : Db σ
  session : Session σ := {}
  emitted : List σ.Note := []

namespace World

variable {σ : Schema} {α β : Type}

/-- The world between two units of work. -/
def ofDb (db : Db σ) (emitted : List σ.Note := []) : World σ where
  committed := db
  view := db
  emitted := emitted

/-- Undo the open transaction; identifiers it took stay out of circulation. -/
def undo (w : World σ) : World σ where
  committed := w.committed.reserve w.view.next
  view := w.committed.reserve w.view.next
  emitted := w.emitted

/-- The effect of one statement. -/
def exec : (s : Stmt σ) → World σ → Except σ.Error s.Res × World σ
  | .query q, w => (.ok (σ.answer q w.view.rows), w)
  | .update u, w => (.ok (w.view.matching u).length, { w with view := w.view.update u })
  | .add row _, w =>
    (.ok w.view.next, { w with
      view := w.view.reserve (w.view.next + 1)
      session := { w.session with new := w.session.new ++ [row w.view.next] } })
  | .assign p, w =>
    (.ok (), { w with session := { w.session with patches := w.session.patches ++ [p] } })
  | .emit n, w => (.ok (), { w with emitted := w.emitted ++ [n] })
  | .flush, w =>
    match w.view.flush w.session with
    | .ok db => (.ok (), { w with view := db, session := {} })
    | .error e => (.error e, w)
  | .commit, w =>
    match w.view.flush w.session with
    | .ok db => (.ok (), { w with committed := db, view := db, session := {} })
    | .error e => (.error e, w)
  | .rollback, w => (.ok (), w.undo)

/-- Run a program alone. -/
abbrev run (p : Prog σ α) (w : World σ) : Except σ.Error α × World σ := Program.run exec p w

/-- Nothing is open and nothing is unflushed. -/
structure Idle (w : World σ) : Prop where
  row_eq : w.view.row = w.committed.row
  session_eq : w.session = {}

theorem idle_ofDb (db : Db σ) (notes : List σ.Note) : (ofDb db notes).Idle := ⟨rfl, rfl⟩

theorem idle_undo (w : World σ) : w.undo.Idle := ⟨rfl, rfl⟩

@[simp] theorem undo_committed_row (w : World σ) : w.undo.committed.row = w.committed.row := rfl

@[simp] theorem undo_emitted (w : World σ) : w.undo.emitted = w.emitted := rfl

@[simp] theorem exec_query (q : σ.Query) (w : World σ) :
    exec (.query q) w = (.ok (σ.answer q w.view.rows), w) := rfl

@[simp] theorem exec_assign (p : σ.Patch) (w : World σ) :
    exec (.assign p) w =
      (.ok (), { w with session := { w.session with patches := w.session.patches ++ [p] } }) := rfl

@[simp] theorem exec_emit (n : σ.Note) (w : World σ) :
    exec (.emit n) w = (.ok (), { w with emitted := w.emitted ++ [n] }) := rfl

@[simp] theorem exec_rollback (w : World σ) :
    exec (.rollback : Stmt σ) w = (.ok (), w.undo) := rfl

/-- A flush either makes the session visible or raises and changes nothing. -/
theorem exec_flush_cases (w : World σ) :
    (∃ db, w.view.flush w.session = .ok db ∧
      exec (.flush : Stmt σ) w = (.ok (), { w with view := db, session := {} })) ∨
    (∃ e, w.view.flush w.session = .error e ∧ exec (.flush : Stmt σ) w = (.error e, w)) := by
  cases h : w.view.flush w.session with
  | ok db => exact Or.inl ⟨db, rfl, by simp only [exec, h]⟩
  | error e => exact Or.inr ⟨e, rfl, by simp only [exec, h]⟩

/-- A commit either publishes the flushed session or raises and changes nothing. -/
theorem exec_commit_cases (w : World σ) :
    (∃ db, w.view.flush w.session = .ok db ∧
      exec (.commit : Stmt σ) w = (.ok (), { w with committed := db, view := db, session := {} })) ∨
    (∃ e, w.view.flush w.session = .error e ∧ exec (.commit : Stmt σ) w = (.error e, w)) := by
  cases h : w.view.flush w.session with
  | ok db => exact Or.inl ⟨db, rfl, by simp only [exec, h]⟩
  | error e => exact Or.inr ⟨e, rfl, by simp only [exec, h]⟩

/-- **Unit of work.** A unit of work that runs alone ends idle: on a normal end of its body with
the flushed session committed, or, when the body or the flush raises, with the committed rows as
they stood at that point. -/
theorem run_withUow (body : Prog σ α) (w : World σ) :
    run (withUow body) w =
      match run body w with
      | (.ok a, w') =>
        match w'.view.flush w'.session with
        | .ok db => (.ok a, undo { w' with committed := db, view := db, session := {} })
        | .error e => (.error e, w'.undo)
      | (.error e, w') => (.error e, w'.undo.undo) := by
  unfold withUow run
  rw [Program.run_onExit]
  rcases Program.run exec body w with ⟨r, w'⟩
  cases r with
  | error e => rfl
  | ok a =>
    rcases exec_commit_cases w' with ⟨db, hf, hc⟩ | ⟨e, hf, hc⟩
    · simp only [Program.run_step, hc, hf]
      rfl
    · simp only [Program.run_step, hc, hf]
      rfl

end World

namespace Db

variable {σ : Schema} {α : Type}

/-- What a program returns or raises when it runs alone on a content. -/
def result (db : Db σ) (p : Prog σ α) : Except σ.Error α := (World.run p (World.ofDb db)).1

/-- The content a program that runs alone leaves committed. -/
def after (db : Db σ) (p : Prog σ α) : Db σ := (World.run p (World.ofDb db)).2.committed

/-- The result of a program that only computes after a point. -/
theorem result_bind_done {β : Type} (db : Db σ) (p : Prog σ α) (f : α → Except σ.Error β) :
    db.result (p >>= fun a => .done (f a)) = (db.result p).bind f := by
  unfold result
  rw [World.run, Program.run_bind, World.run]
  rcases Program.run World.exec p (World.ofDb db) with ⟨r, w⟩
  cases r <;> rfl

/-- A unit of work whose body leaves nothing to flush ends as its body does. -/
theorem result_withUow_of_session {db : Db σ} {body : Prog σ α} {r : Except σ.Error α}
    {w : World σ} (h : World.run body (World.ofDb db) = (r, w)) (hs : w.session = {}) :
    db.result (withUow body) = r := by
  unfold result
  rw [World.run_withUow, h]
  cases r with
  | error e => rfl
  | ok a =>
    dsimp only
    rw [hs, flush_empty]

/-- What a unit of work leaves committed. -/
theorem after_withUow_row (db : Db σ) (body : Prog σ α) :
    (db.after (withUow body)).row =
      match World.run body (World.ofDb db) with
      | (.ok _, w) =>
        match w.view.flush w.session with
        | .ok db' => db'.row
        | .error _ => w.committed.row
      | (.error _, w) => w.committed.row := by
  unfold after
  rw [World.run_withUow]
  rcases World.run body (World.ofDb db) with ⟨r, w⟩
  cases r with
  | error e => rfl
  | ok a =>
    dsimp only
    cases w.view.flush w.session <;> rfl

/-- A unit of work whose body ends normally, with a session that can be flushed. -/
theorem withUow_of_flush {db db' : Db σ} {body : Prog σ α} {a : α} {w : World σ}
    (h : World.run body (World.ofDb db) = (.ok a, w)) (hf : w.view.flush w.session = .ok db') :
    db.result (withUow body) = .ok a ∧ (db.after (withUow body)).row = db'.row := by
  unfold result after
  rw [World.run_withUow, h]
  dsimp only
  rw [hf]
  exact ⟨rfl, rfl⟩

/-- A unit of work whose body leaves the rows as they were. -/
theorem withUow_of_quiet {db : Db σ} {body : Prog σ α} {r : Except σ.Error α} {w : World σ}
    (h : World.run body (World.ofDb db) = (r, w)) (hs : w.session = {})
    (hv : w.view.row = db.row) (hc : w.committed.row = db.row) :
    db.result (withUow body) = r ∧ (db.after (withUow body)).row = db.row := by
  refine ⟨result_withUow_of_session h hs, ?_⟩
  rw [after_withUow_row, h]
  cases r with
  | error e => exact hc
  | ok a =>
    dsimp only
    rw [hs, flush_empty]
    exact hv

/-- A unit of work with something computed from its answer. -/
theorem alone_map {β : Type} (db : Db σ) (body : Prog σ α) (f : α → β) :
    db.result (body >>= fun a => .done (.ok (f a))) = (db.result body).map f ∧
      db.after (body >>= fun a => .done (.ok (f a))) = db.after body := by
  unfold result after
  rw [World.run, Program.run_bind, World.run]
  rcases Program.run World.exec body (World.ofDb db) with ⟨r, w⟩
  cases r <;> exact ⟨rfl, rfl⟩

section Keeps

variable {κ : Type} {part : σ.Row → κ} {p : Prog σ α} {db : Db σ} {i : ℕ} {r : σ.Row}

/-- A row of this identifier is there, and shows `x`. -/
def Shows (part : σ.Row → κ) (i : ℕ) (x : κ) (row : ℕ → Option σ.Row) : Prop :=
  ∃ r, row i = some r ∧ part r = x

theorem shows_flush {x : κ} {db db' : Db σ} {s : Session σ}
    (hs : ∀ p ∈ s.patches, ∀ r, part (σ.patch p r) = part r) (hf : db.flush s = .ok db')
    (h : Shows part i x db.row) : Shows part i x db'.row := by
  obtain ⟨r, hr, hx⟩ := h
  exact ⟨_, flush_row_of_some hf hr, (Session.apply_keeps hs r).trans hx⟩

/-- **Kept parts.** A part of a row that every statement of a program keeps is the same after it. -/
theorem after_row_of_keeps (hp : p.Only (Stmt.Keeps part)) (hr : db.row i = some r) :
    ∃ r', (db.after p).row i = some r' ∧ part r' = part r := by
  refine (hp.run_invariant (P := fun w : World σ => Shows part i (part r) w.committed.row ∧
    Shows part i (part r) w.view.row ∧
    ∀ p ∈ w.session.patches, ∀ r, part (σ.patch p r) = part r) ?_
    (w := World.ofDb db) ⟨⟨r, hr, rfl⟩, ⟨r, hr, rfl⟩, fun p hp => by cases hp⟩).1
  rintro c w hc ⟨hcommitted, hview, hs⟩
  cases c with
  | update u =>
    refine ⟨hcommitted, ?_, hs⟩
    obtain ⟨r', hr', hx⟩ := hview
    refine ⟨updated u r', ?_, (part_updated hc r').trans hx⟩
    change (w.view.row i).map (updated u) = _
    rw [hr']
    rfl
  | assign p =>
    refine ⟨hcommitted, hview, fun p' hp' => ?_⟩
    rcases List.mem_append.mp hp' with hp' | hp'
    · exact hs p' hp'
    · obtain rfl := List.mem_singleton.mp hp'
      exact hc
  | flush =>
    rcases World.exec_flush_cases w with ⟨db, hf, he⟩ | ⟨e, -, he⟩
    · rw [he]
      exact ⟨hcommitted, shows_flush hs hf hview, fun p hp => by cases hp⟩
    · rw [he]
      exact ⟨hcommitted, hview, hs⟩
  | commit =>
    rcases World.exec_commit_cases w with ⟨db, hf, he⟩ | ⟨e, -, he⟩
    · rw [he]
      exact ⟨shows_flush hs hf hview, shows_flush hs hf hview, fun p hp => by cases hp⟩
    · rw [he]
      exact ⟨hcommitted, hview, hs⟩
  | query | add | emit => exact ⟨hcommitted, hview, hs⟩
  | rollback => exact ⟨hcommitted, hcommitted, fun p hp => by cases hp⟩

end Keeps

/-- **Frozen rows.** A row that no bulk update matches and no column write changes stays, whatever
program runs. -/
theorem after_row_of_frozen {db : Db σ} {i : ℕ} {r : σ.Row} (h : db.row i = some r)
    (hguard : ∀ u, σ.guard u r = false) (hpatch : ∀ p, σ.patch p r = r) (p : Prog σ α) :
    (db.after p).row i = some r := by
  have hflush : ∀ (db db' : Db σ) (s : Session σ), db.row i = some r → db.flush s = .ok db' →
      db'.row i = some r := by
    intro db db' s hr hf
    rw [flush_row_of_some hf hr]
    unfold Session.apply
    refine congrArg some ?_
    induction s.patches with
    | nil => rfl
    | cons p ps ih =>
      have hp : patched p r = r := by
        unfold patched
        split
        · exact hpatch p
        · rfl
      rw [List.foldl_cons, hp]
      exact ih
  refine (Program.run_invariant (P := fun w : World σ => w.committed.row i = some r ∧
    w.view.row i = some r) ?_ p ⟨h, h⟩).1
  rintro c w ⟨hc, hv⟩
  cases c with
  | update u =>
    refine ⟨hc, ?_⟩
    change (w.view.row i).map (updated u) = some r
    rw [hv]
    exact congrArg some (if_neg (by simp [hguard u]))
  | flush =>
    rcases World.exec_flush_cases w with ⟨db, hf, he⟩ | ⟨e, -, he⟩
    · rw [he]
      exact ⟨hc, hflush _ _ _ hv hf⟩
    · rw [he]
      exact ⟨hc, hv⟩
  | commit =>
    rcases World.exec_commit_cases w with ⟨db, hf, he⟩ | ⟨e, -, he⟩
    · rw [he]
      exact ⟨hflush _ _ _ hv hf, hflush _ _ _ hv hf⟩
    · rw [he]
      exact ⟨hc, hv⟩
  | query | add | assign | emit => exact ⟨hc, hv⟩
  | rollback => exact ⟨hc, hc⟩

end Db

end TxStore
