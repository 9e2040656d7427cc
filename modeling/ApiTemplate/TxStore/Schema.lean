import ApiTemplate.TxStore.Program
import Mathlib.Data.List.Basic
import Mathlib.Data.List.Nodup
import Mathlib.Data.List.Range

/-!
# Schemas and database contents

A `Schema` says what a relational database looks like to the programs that use it: its rows, keyed
by an identifier, the queries, the bulk updates (`UPDATE … SET … WHERE`), the column writes a
session buffers for a loaded row, and the unique constraint. `Stmt` are the statements a program
can issue. `Db` is the content of a database; it carries the primary key as a field, so that no
content with two rows of one identifier can be built.
-/

namespace TxStore

/-- What a database holds and which statements it understands. -/
structure Schema where
  Row : Type
  rowId : Row → ℕ
  Query : Type
  Answer : Query → Type
  /-- The answer of a query over the rows it sees. -/
  answer : (q : Query) → List Row → Answer q
  Update : Type
  /-- The `WHERE` of a bulk update. -/
  guard : Update → Row → Bool
  /-- The `SET` of a bulk update. -/
  set : Update → Row → Row
  rowId_set : ∀ u r, rowId (set u r) = rowId r
  Patch : Type
  /-- The row whose columns a buffered write changes. -/
  target : Patch → ℕ
  patch : Patch → Row → Row
  rowId_patch : ∀ p r, rowId (patch p r) = rowId r
  /-- Two rows that a unique constraint does not let stand together. -/
  clash : Row → Row → Bool
  Note : Type
  Error : Type
  uniqueViolation : Error
  /-- The error of a statement the database or the connection refused. -/
  failure : Error

/-- The statements of a program over a schema. -/
inductive Stmt (σ : Schema) : Type
  | query (q : σ.Query)
  | update (u : σ.Update)
  /-- Add a new row, under a fresh identifier, to the session; the flush inserts it. -/
  | add (row : ℕ → σ.Row) (keyed : ∀ i, σ.rowId (row i) = i)
  /-- Change columns of a loaded row in the session; the flush writes them. -/
  | assign (p : σ.Patch)
  /-- Announce something to the outside. -/
  | emit (n : σ.Note)
  | flush
  | commit
  | rollback

/-- The answer of a statement: a bulk update answers its row count, `add` the new identifier. -/
@[reducible] def Stmt.Res {σ : Schema} : Stmt σ → Type
  | .query q => σ.Answer q
  | .update _ => ℕ
  | .add _ _ => ℕ
  | .assign _ => Unit
  | .emit _ => Unit
  | .flush => Unit
  | .commit => Unit
  | .rollback => Unit

/-- The statement commits. -/
def Stmt.isCommit {σ : Schema} : Stmt σ → Bool
  | .commit => true
  | _ => false

/-- The statement only reads. -/
def Stmt.isQuery {σ : Schema} : Stmt σ → Bool
  | .query _ => true
  | _ => false

theorem Stmt.isCommit_of_isQuery {σ : Schema} {s : Stmt σ} (h : s.isQuery = true) :
    s.isCommit = false := by
  cases s with
  | commit => cases h
  | query | update | add | assign | emit | flush | rollback => rfl

/-- The statement leaves a part of each row that is there. -/
def Stmt.Keeps {σ : Schema} {κ : Type} (part : σ.Row → κ) : Stmt σ → Prop
  | .update u => ∀ r, σ.guard u r = true → part (σ.set u r) = part r
  | .assign p => ∀ r, part (σ.patch p r) = part r
  | _ => True

/-- Programs over a schema. -/
abbrev Prog (σ : Schema) (α : Type) : Type := Program (Stmt σ) Stmt.Res σ.Error α

/-- The body of a unit of work: commit when it ends normally, roll back when it raises, and close
the session either way. An error of the commit or of the close is raised. -/
def withUow {σ : Schema} {α : Type} (body : Prog σ α) : Prog σ α :=
  body.onExit fun
    | .ok a =>
      .step .commit fun c => .step .rollback fun x => .done (x >>= fun _ => c >>= fun _ => .ok a)
    | .error e =>
      .step .rollback fun c => .step .rollback fun x =>
        .done (x >>= fun _ => c >>= fun _ => .error e)

theorem Program.Only.withUow {σ : Schema} {α : Type} {A : Stmt σ → Prop} {body : Prog σ α}
    (h : body.Only A) (hcommit : A .commit) (hrollback : A .rollback) :
    (TxStore.withUow body).Only A := by
  refine h.onExit fun r => ?_
  cases r with
  | ok a => exact ⟨hcommit, fun _ => ⟨hrollback, fun _ => trivial⟩⟩
  | error e => exact ⟨hrollback, fun _ => ⟨hrollback, fun _ => trivial⟩⟩

/-- The content of a database. -/
structure Db (σ : Schema) where
  row : ℕ → Option σ.Row
  /-- Identifiers from here on are unused. -/
  next : ℕ
  bound : ∀ i, next ≤ i → row i = none
  keyed : ∀ i r, row i = some r → σ.rowId r = i

/-- What a session has not flushed: new rows and column writes. -/
structure Session (σ : Schema) where
  new : List σ.Row := []
  patches : List σ.Patch := []

variable {σ : Schema}

/-- A list over a range whose later part is empty. -/
theorem filterMap_range {α : Type} {f : ℕ → Option α} {n m : ℕ} (hf : ∀ i, n ≤ i → f i = none)
    (hnm : n ≤ m) : (List.range m).filterMap f = (List.range n).filterMap f := by
  obtain ⟨d, rfl⟩ := Nat.exists_eq_add_of_le hnm
  rw [List.range_add, List.filterMap_append]
  have hnil : (List.map (fun x => n + x) (List.range d)).filterMap f = [] := by
    rw [List.filterMap_eq_nil_iff]
    intro i hi
    obtain ⟨x, -, rfl⟩ := List.mem_map.mp hi
    exact hf _ (Nat.le_add_right n x)
  rw [hnil, List.append_nil]

namespace Db

theorem lt_next (db : Db σ) {i : ℕ} {r : σ.Row} (h : db.row i = some r) : i < db.next := by
  by_contra hn
  have := db.bound i (by omega)
  rw [this] at h
  cases h

/-- The rows, in the order of their identifiers. -/
def rows (db : Db σ) : List σ.Row := (List.range db.next).filterMap db.row

theorem mem_rows {db : Db σ} {r : σ.Row} : r ∈ db.rows ↔ db.row (σ.rowId r) = some r := by
  unfold rows
  rw [List.mem_filterMap]
  constructor
  · rintro ⟨i, -, hi⟩
    rw [db.keyed i r hi]
    exact hi
  · intro h
    exact ⟨σ.rowId r, List.mem_range.mpr (db.lt_next h), h⟩

theorem mem_rows_of_row {db : Db σ} {i : ℕ} {r : σ.Row} (h : db.row i = some r) : r ∈ db.rows :=
  mem_rows.mpr (by rw [db.keyed i r h]; exact h)

/-- Contents that agree on a part of each row list these parts alike. -/
theorem filterMap_rows_congr {α : Type} {db db' : Db σ} {f : σ.Row → Option α}
    (h : ∀ i, (db.row i).bind f = (db'.row i).bind f) :
    db.rows.filterMap f = db'.rows.filterMap f := by
  have hbound : ∀ (db : Db σ) i, db.next ≤ i → (db.row i).bind f = none := by
    intro db i hi
    rw [db.bound i hi]
    rfl
  unfold rows
  rw [List.filterMap_filterMap, List.filterMap_filterMap,
    ← filterMap_range (hbound db) (le_max_left db.next db'.next),
    ← filterMap_range (hbound db') (le_max_right db.next db'.next), funext h]

/-- Contents that hold the same rows list them alike. -/
theorem rows_congr {db db' : Db σ} (h : db.row = db'.row) : db.rows = db'.rows := by
  have hparts := filterMap_rows_congr (f := some) fun i => congrArg (Option.bind · some) (congrFun h i)
  rwa [List.filterMap_some, List.filterMap_some] at hparts

/-- At most one row has a given identifier. -/
theorem rows_filter_rowId (db : Db σ) (i : ℕ) :
    (db.rows.filter fun r => decide (σ.rowId r = i)) = (db.row i).toList := by
  have key : ∀ l : List ℕ, l.Nodup → ((l.filterMap db.row).filter fun r => decide (σ.rowId r = i)) =
      if i ∈ l then (db.row i).toList else [] := by
    intro l hl
    induction l with
    | nil => rfl
    | cons j l ih =>
      have hj := List.nodup_cons.mp hl
      rw [List.filterMap_cons]
      by_cases hji : j = i
      · subst hji
        have htail := ih hj.2
        rw [if_neg hj.1] at htail
        rw [if_pos List.mem_cons_self]
        cases hr : db.row j with
        | none => exact htail
        | some r =>
          dsimp only
          rw [List.filter_cons_of_pos (by simp [db.keyed j r hr]), htail]
          rfl
      · have hmem : i ∈ j :: l ↔ i ∈ l := by simp [Ne.symm hji]
        simp only [hmem]
        rw [← ih hj.2]
        cases hr : db.row j with
        | none => rfl
        | some r =>
          dsimp only
          rw [List.filter_cons_of_neg (by simp [db.keyed j r hr, hji])]
  unfold rows
  rw [key _ List.nodup_range]
  split
  · rfl
  · rename_i hi
    rw [db.bound i (by simpa using hi)]
    rfl

/-- The empty database. -/
def empty : Db σ where
  row _ := none
  next := 0
  bound _ _ := rfl
  keyed _ _ h := by cases h

/-- Take the identifiers below `n` out of circulation. -/
def reserve (db : Db σ) (n : ℕ) : Db σ where
  row := db.row
  next := max db.next n
  bound i hi := db.bound i (le_trans (le_max_left _ _) hi)
  keyed := db.keyed

@[simp] theorem reserve_row (db : Db σ) (n : ℕ) : (db.reserve n).row = db.row := rfl

@[simp] theorem reserve_rows (db : Db σ) (n : ℕ) : (db.reserve n).rows = db.rows :=
  rows_congr rfl

/-- Map every row, keeping its identifier. -/
def map (db : Db σ) (f : σ.Row → σ.Row) (hf : ∀ r, σ.rowId (f r) = σ.rowId r) : Db σ where
  row i := (db.row i).map f
  next := db.next
  bound i hi := by rw [db.bound i hi]; rfl
  keyed i r h := by
    obtain ⟨r₀, h₀, rfl⟩ := Option.map_eq_some_iff.mp h
    rw [hf]
    exact db.keyed i r₀ h₀

/-- The row a bulk update leaves in the place of `r`. -/
def updated (u : σ.Update) (r : σ.Row) : σ.Row := if σ.guard u r then σ.set u r else r

/-- A bulk update keeps what its assignments keep. -/
theorem part_updated {κ : Type} {part : σ.Row → κ} {u : σ.Update}
    (h : (Stmt.update u : Stmt σ).Keeps part) (r : σ.Row) : part (updated u r) = part r := by
  unfold updated
  split
  · rename_i hg
    exact h r hg
  · rfl

theorem rowId_updated (u : σ.Update) (r : σ.Row) : σ.rowId (updated u r) = σ.rowId r := by
  unfold updated
  split
  · exact σ.rowId_set u r
  · rfl

/-- The whole of a bulk update. -/
def update (db : Db σ) (u : σ.Update) : Db σ := db.map (updated u) (rowId_updated u)

@[simp] theorem update_row (db : Db σ) (u : σ.Update) (i : ℕ) :
    (db.update u).row i = (db.row i).map (updated u) := rfl

/-- The identifiers of the rows a bulk update matches. -/
def matching (db : Db σ) (u : σ.Update) : List ℕ :=
  (List.range db.next).filter fun i => (db.row i).any (σ.guard u)

theorem mem_matching {db : Db σ} {u : σ.Update} {i : ℕ} :
    i ∈ db.matching u ↔ ∃ r, db.row i = some r ∧ σ.guard u r = true := by
  unfold matching
  rw [List.mem_filter, List.mem_range]
  constructor
  · rintro ⟨-, h⟩
    exact (Option.any_eq_true _ _).mp h
  · rintro ⟨r, hr, hg⟩
    exact ⟨db.lt_next hr, by rw [hr]; exact hg⟩

/-- A bulk update by primary key matches at most that row. -/
theorem matching_of_rowId (db : Db σ) {u : σ.Update} {i : ℕ}
    (h : ∀ r, σ.guard u r = true → σ.rowId r = i) :
    db.matching u = if (db.row i).any (σ.guard u) then [i] else [] := by
  have hguard : ∀ j, (db.row j).any (σ.guard u) =
      (j == i && (db.row i).any (σ.guard u)) := by
    intro j
    by_cases hj : j = i
    · rw [hj, beq_self_eq_true, Bool.true_and]
    · rw [beq_eq_false_iff_ne.mpr hj, Bool.false_and, Bool.eq_false_iff]
      intro hany
      obtain ⟨r, hr, hg⟩ := (Option.any_eq_true _ _).mp hany
      exact hj ((db.keyed j r hr).symm.trans (h r hg))
  unfold matching
  rw [funext hguard]
  cases hany : (db.row i).any (σ.guard u) with
  | false => simp
  | true =>
    obtain ⟨r, hr, -⟩ := (Option.any_eq_true _ _).mp hany
    have hcount : (List.range db.next).count i = 1 :=
      List.count_eq_one_of_mem List.nodup_range (List.mem_range.mpr (db.lt_next hr))
    simp only [Bool.and_true, List.filter_beq, hcount]
    rfl

/-- The row that column writes leave in the place of row `r`. -/
def patched (p : σ.Patch) (r : σ.Row) : σ.Row :=
  if σ.rowId r = σ.target p then σ.patch p r else r

theorem rowId_patched (p : σ.Patch) (r : σ.Row) : σ.rowId (patched p r) = σ.rowId r := by
  unfold patched
  split
  · exact σ.rowId_patch p r
  · rfl

/-- Put a row in its place. -/
def put (db : Db σ) (r : σ.Row) : Db σ where
  row := Function.update db.row (σ.rowId r) (some r)
  next := max db.next (σ.rowId r + 1)
  bound i hi := by
    rw [Function.update_of_ne (by omega)]
    exact db.bound i (by omega)
  keyed i r' h := by
    by_cases hi : i = σ.rowId r
    · subst hi
      rw [Function.update_self] at h
      cases h
      rfl
    · rw [Function.update_of_ne hi] at h
      exact db.keyed i r' h

@[simp] theorem put_row (db : Db σ) (r : σ.Row) :
    (db.put r).row = Function.update db.row (σ.rowId r) (some r) := rfl

/-- Some other row stands against `r` under the unique constraint. -/
def clashes (db : Db σ) (r : σ.Row) : Bool :=
  db.rows.any fun r' => decide (σ.rowId r' ≠ σ.rowId r) && σ.clash r r'

/-- `INSERT` of one row. -/
def insert (db : Db σ) (r : σ.Row) : Except σ.Error (Db σ) :=
  if (db.row (σ.rowId r)).isSome || db.clashes r then .error σ.uniqueViolation else .ok (db.put r)

/-- `UPDATE` of the written columns of one row. -/
def write (db : Db σ) (p : σ.Patch) : Except σ.Error (Db σ) :=
  if (db.row (σ.target p)).any fun r => db.clashes (σ.patch p r) then .error σ.uniqueViolation
  else .ok (db.map (patched p) (rowId_patched p))

/-- Flush a session: its inserts, then its column writes. -/
def flush (db : Db σ) (s : Session σ) : Except σ.Error (Db σ) := do
  let db ← s.new.foldlM insert db
  s.patches.foldlM write db

@[simp] theorem flush_empty (db : Db σ) : db.flush {} = .ok db := rfl

theorem flush_patch (db : Db σ) (p : σ.Patch) : db.flush { patches := [p] } = db.write p := by
  change (db.write p >>= fun db₁ => pure db₁) = _
  exact bind_pure _

theorem flush_new (db : Db σ) (r : σ.Row) : db.flush { new := [r] } = db.insert r := by
  change ((db.insert r >>= fun db₁ => pure db₁) >>= fun db₁ => pure db₁) = _
  rw [bind_pure, bind_pure]

theorem insert_eq_ok {db db' : Db σ} {r : σ.Row} (h : db.insert r = .ok db') :
    db.row (σ.rowId r) = none ∧ db' = db.put r := by
  unfold insert at h
  split at h
  · cases h
  · rename_i hc
    cases h
    refine ⟨?_, rfl⟩
    rw [Bool.or_eq_true, not_or] at hc
    exact Option.not_isSome_iff_eq_none.mp hc.1

theorem write_eq_ok {db db' : Db σ} {p : σ.Patch} (h : db.write p = .ok db') :
    db' = db.map (patched p) (rowId_patched p) := by
  unfold write at h
  split at h
  · cases h
  · cases h
    rfl

end Db

namespace Session

/-- The rows a session is about to insert or change. -/
def ids (s : Session σ) : List ℕ := s.new.map σ.rowId ++ s.patches.map σ.target

/-- The row that a session's column writes leave in the place of `r`. -/
def apply (s : Session σ) (r : σ.Row) : σ.Row := s.patches.foldl (fun r p => Db.patched p r) r

/-- What its column writes keep of a row, a session keeps. -/
theorem apply_keeps {κ : Type} {f : σ.Row → κ} {s : Session σ}
    (h : ∀ p ∈ s.patches, ∀ r, f (σ.patch p r) = f r) (r : σ.Row) : f (s.apply r) = f r := by
  unfold apply
  generalize s.patches = ps at h ⊢
  induction ps generalizing r with
  | nil => rfl
  | cons p ps ih =>
    rw [List.foldl_cons, ih _ fun p' hp' => h p' (List.mem_cons_of_mem p hp')]
    unfold Db.patched
    split
    · exact h p List.mem_cons_self r
    · rfl

end Session

namespace Db

/-- The inserts of a flush: old rows stay, a row that was not there is one of the new ones. -/
theorem foldlM_insert {db db' : Db σ} {new : List σ.Row} (h : new.foldlM insert db = .ok db') :
    (∀ i r, db.row i = some r → db'.row i = some r) ∧
      (∀ i r, db'.row i = some r → db.row i = some r ∨ db.row i = none ∧ r ∈ new) := by
  induction new generalizing db with
  | nil =>
    cases h
    exact ⟨fun _ _ hr => hr, fun _ _ hr => Or.inl hr⟩
  | cons n new ih =>
    rw [List.foldlM_cons] at h
    cases hn : db.insert n with
    | error e =>
      rw [hn] at h
      cases h
    | ok db₁ =>
      rw [hn] at h
      obtain ⟨hnone, rfl⟩ := insert_eq_ok hn
      obtain ⟨hold, hnew⟩ := ih h
      constructor
      · intro i r hr
        refine hold i r ?_
        rw [put_row, Function.update_of_ne]
        · exact hr
        · rintro rfl
          rw [hnone] at hr
          cases hr
      · intro i r hr
        rcases hnew i r hr with hr' | ⟨hr', hmem⟩
        · rw [put_row] at hr'
          by_cases hi : i = σ.rowId n
          · subst hi
            rw [Function.update_self] at hr'
            cases hr'
            exact Or.inr ⟨hnone, List.mem_cons_self⟩
          · rw [Function.update_of_ne hi] at hr'
            exact Or.inl hr'
        · rw [put_row] at hr'
          by_cases hi : i = σ.rowId n
          · subst hi
            rw [Function.update_self] at hr'
            cases hr'
          · rw [Function.update_of_ne hi] at hr'
            exact Or.inr ⟨hr', List.mem_cons_of_mem n hmem⟩

/-- The column writes of a flush. -/
theorem foldlM_write {db db' : Db σ} {s : Session σ} (h : s.patches.foldlM write db = .ok db')
    (i : ℕ) : db'.row i = (db.row i).map s.apply := by
  unfold Session.apply
  generalize s.patches = ps at h ⊢
  induction ps generalizing db with
  | nil =>
    cases h
    exact Option.map_id'.symm
  | cons p ps ih =>
    rw [List.foldlM_cons] at h
    cases hp : db.write p with
    | error e =>
      rw [hp] at h
      cases h
    | ok db₁ =>
      rw [hp] at h
      have hdb := write_eq_ok hp
      subst hdb
      rw [ih h]
      change Option.map _ ((db.row i).map (patched p)) = _
      rw [Option.map_map]
      rfl

variable {db db' : Db σ} {s : Session σ} {i : ℕ} {r : σ.Row}

/-- A flush leaves in the place of a row what the session's column writes make of it. -/
theorem flush_row_of_some (h : db.flush s = .ok db') (hr : db.row i = some r) :
    db'.row i = some (s.apply r) := by
  unfold flush at h
  cases hn : s.new.foldlM insert db with
  | error e =>
    rw [hn] at h
    cases h
  | ok db₁ =>
    rw [hn] at h
    rw [foldlM_write h, (foldlM_insert hn).1 i r hr]
    rfl

/-- A row that appears in a flush is one of the session's new rows. -/
theorem flush_row_of_none (h : db.flush s = .ok db') (hr : db.row i = none)
    (hr' : db'.row i = some r) : ∃ n ∈ s.new, σ.rowId n = i ∧ r = s.apply n := by
  unfold flush at h
  cases hn : s.new.foldlM insert db with
  | error e =>
    rw [hn] at h
    cases h
  | ok db₁ =>
    rw [hn] at h
    rw [foldlM_write h] at hr'
    obtain ⟨n, hdb₁, rfl⟩ := Option.map_eq_some_iff.mp hr'
    rcases (foldlM_insert hn).2 i n hdb₁ with hold | ⟨-, hmem⟩
    · rw [hr] at hold
      cases hold
    · exact ⟨n, hmem, db₁.keyed i n hdb₁, rfl⟩

/-- A flush writes only the rows it announces. -/
theorem flush_row_of_notMem (h : db.flush s = .ok db') (hi : i ∉ s.ids) :
    db'.row i = db.row i := by
  unfold Session.ids at hi
  rw [List.mem_append, not_or] at hi
  cases hr : db.row i with
  | none =>
    cases hr' : db'.row i with
    | none => rfl
    | some r' =>
      obtain ⟨n, hmem, rfl, -⟩ := flush_row_of_none h hr hr'
      exact absurd (List.mem_map_of_mem hmem) hi.1
  | some r =>
    rw [flush_row_of_some h hr]
    have key : ∀ ps : List σ.Patch, i ∉ ps.map σ.target →
        ps.foldl (fun r p => patched p r) r = r := by
      intro ps hps
      induction ps with
      | nil => rfl
      | cons p ps ih =>
        rw [List.map_cons, List.mem_cons, not_or] at hps
        have hp : patched p r = r := by
          unfold patched
          rw [db.keyed i r hr]
          exact if_neg hps.1
        rw [List.foldl_cons, hp]
        exact ih hps.2
    exact congrArg some (key s.patches hi.2)

end Db

end TxStore
