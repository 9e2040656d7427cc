import ApiTemplate.TxStore.Unique

/-!
# Programs under failures

A program that has the database to itself, with any of its statements failing. `Faults` says, by
the number of the statement, whether it raises and whether it had taken effect by then; a `Trial`
is the world with what the program has done so far. `Ends P p Q` speaks of the normal ends of `p`
from trials with `P`, whatever fails on the way, and has the rules of a program logic; `Body` has
them for programs that do not commit. What a unit of work commits under failures follows from the
normal ends of its body alone.
-/

namespace TxStore

/-- A statement raises `error`; a `late` fault strikes when it has taken effect. -/
structure Fault (σ : Schema) where
  error : σ.Error
  late : Bool

/-- Which statements of a run fail, by their number. -/
abbrev Faults (σ : Schema) : Type := ℕ → Option (Fault σ)

/-- A statement with its answer. -/
abbrev Answered (σ : Schema) : Type := (s : Stmt σ) × s.Res

/-- A program on its way: the world, the number of statements issued, whether a commit has
succeeded, and the statements that took effect. -/
structure Trial (σ : Schema) where
  world : World σ
  issued : ℕ := 0
  committed : Bool := false
  trace : List (Answered σ) := []

namespace Trial

variable {σ : Schema} {α β : Type}

/-- A program that is about to start. -/
def start (db : Db σ) : Trial σ := { world := World.ofDb db }

/-- The statement takes effect. -/
def effect (s : Stmt σ) (st : Trial σ) : Trial σ where
  world := (World.exec s st.world).2
  issued := st.issued + 1
  committed := st.committed || (s.isCommit && (World.exec s st.world).1.isOk)
  trace :=
    match (World.exec s st.world).1 with
    | .ok a => st.trace ++ [⟨s, a⟩]
    | .error _ => st.trace

/-- The statement does not get to take effect. -/
def skip (st : Trial σ) : Trial σ := { st with issued := st.issued + 1 }

/-- One statement under failures. -/
def exec (faults : Faults σ) (s : Stmt σ) (st : Trial σ) : Except σ.Error s.Res × Trial σ :=
  match faults st.issued with
  | none => ((World.exec s st.world).1, st.effect s)
  | some fault => (.error fault.error, if fault.late then st.effect s else st.skip)

/-- Run a program alone, under failures. -/
abbrev run (faults : Faults σ) (p : Prog σ α) (st : Trial σ) : Except σ.Error α × Trial σ :=
  Program.run (exec faults) p st

variable {faults : Faults σ} {st : Trial σ}

theorem exec_state (faults : Faults σ) (s : Stmt σ) (st : Trial σ) :
    (exec faults s st).2 = st.effect s ∨ (exec faults s st).2 = st.skip := by
  unfold exec
  split
  · exact Or.inl rfl
  · dsimp only
    split
    · exact Or.inl rfl
    · exact Or.inr rfl

/-- A statement that answers has taken effect. -/
theorem exec_eq_ok {s : Stmt σ} {a : s.Res} {st' : Trial σ} (h : exec faults s st = (.ok a, st')) :
    (World.exec s st.world).1 = .ok a ∧ st' = st.effect s := by
  unfold exec at h
  split at h
  · exact ⟨(Prod.mk.inj h).1, (Prod.mk.inj h).2.symm⟩
  · cases (Prod.mk.inj h).1

/-! ## The committed rows -/

/-- Only a commit changes the committed rows. -/
theorem effect_row {s : Stmt σ} (h : (st.effect s).committed = false) :
    st.committed = false ∧ (st.effect s).world.committed.row = st.world.committed.row := by
  obtain ⟨hst, hs⟩ := Bool.or_eq_false_iff.mp h
  refine ⟨hst, ?_⟩
  cases s with
  | commit =>
    rcases World.exec_commit_cases st.world with ⟨db, -, hc⟩ | ⟨e, -, hc⟩
    · rw [hc] at hs
      cases hs
    · exact congrArg (fun x : Except σ.Error Unit × World σ => x.2.committed.row) hc
  | flush =>
    rcases World.exec_flush_cases st.world with ⟨db, -, hc⟩ | ⟨e, -, hc⟩
    · exact congrArg (fun x : Except σ.Error Unit × World σ => x.2.committed.row) hc
    · exact congrArg (fun x : Except σ.Error Unit × World σ => x.2.committed.row) hc
  | query | update | add | assign | emit | rollback => rfl

/-- **No commit, no change.** A run in which no commit succeeds leaves the committed rows. -/
theorem row_of_not_committed (faults : Faults σ) (st : Trial σ) (p : Prog σ α)
    (h : (run faults p st).2.committed = false) :
    (run faults p st).2.world.committed.row = st.world.committed.row := by
  refine Program.run_invariant (P := fun st' : Trial σ => st'.committed = false →
    st'.world.committed.row = st.world.committed.row) ?_ p (fun _ => rfl) h
  intro s st' ih hc
  rcases exec_state faults s st' with he | he
  · rw [he] at hc ⊢
    obtain ⟨hst', hrow⟩ := effect_row hc
    exact hrow.trans (ih hst')
  · rw [he] at hc ⊢
    exact ih hc

/-- A program without a commit. -/
theorem committed_eq (faults : Faults σ) (st : Trial σ) (p : Prog σ α)
    (h : p.Only fun s => s.isCommit = false) :
    (run faults p st).2.committed = st.committed := by
  refine h.run_invariant (P := fun st' : Trial σ => st'.committed = st.committed) ?_ rfl
  intro s st' hs ih
  rcases exec_state faults s st' with he | he
  · rw [he]
    change (st'.committed || (s.isCommit && _)) = _
    rw [hs, Bool.false_and, Bool.or_false, ih]
  · rw [he]
    exact ih

end Trial

/-- **A unique constraint is kept**, whatever fails. -/
theorem UniqueKey.Distinct.trial {σ : Schema} {κ α : Type} {uk : UniqueKey σ κ} {db : Db σ}
    (h : uk.Distinct db) (faults : Faults σ) (p : Prog σ α) :
    uk.Distinct (Trial.run faults p (.start db)).2.world.committed := by
  refine (Program.run_invariant (P := fun st : Trial σ => uk.Holds st.world) ?_ p
    (w := Trial.start db) ⟨h, h⟩).committed
  intro s st hst
  rcases Trial.exec_state faults s st with he | he
  · rw [he]
    exact UniqueKey.holds_exec hst s
  · rw [he]
    exact hst

/-! ## Normal ends -/

/-- Whatever fails, a run of `p` that starts with `P` and ends normally ends with `Q`. -/
def Ends {σ : Schema} {α : Type} (P : Trial σ → Prop) (p : Prog σ α)
    (Q : α → Trial σ → Prop) : Prop :=
  ∀ faults st a st', P st → Trial.run faults p st = (.ok a, st') → Q a st'

namespace Ends

variable {σ : Schema} {α β : Type} {P P' : Trial σ → Prop} {Q Q' : α → Trial σ → Prop}
  {p : Prog σ α}

theorem done {a : α} (h : ∀ st, P st → Q a st) : Ends P (.done (.ok a)) Q := by
  intro faults st a' st' hP hrun
  cases hrun
  exact h _ hP

theorem raise (e : σ.Error) : Ends P (.done (.error e)) Q := by
  intro faults st a st' hP hrun
  cases hrun

theorem lift {s : Stmt σ} {Q : s.Res → Trial σ → Prop}
    (h : ∀ st a, P st → (World.exec s st.world).1 = .ok a → Q a (st.effect s)) :
    Ends P (Program.lift s) Q := by
  intro faults st a st' hP hrun
  obtain ⟨ha, rfl⟩ := Trial.exec_eq_ok (s := s) (a := a) hrun
  exact h st a hP ha

theorem bind {R : β → Trial σ → Prop} {f : α → Prog σ β} (h : Ends P p Q)
    (hf : ∀ a, Ends (Q a) (f a) R) : Ends P (p >>= f) R := by
  intro faults st b st' hP hrun
  rw [Trial.run, Program.run_bind] at hrun
  split at hrun
  · rename_i a st₁ hp
    exact hf a faults st₁ b st' (h faults st a st₁ hP hp) hrun
  · cases hrun

theorem mono (hpre : ∀ st, P' st → P st) (h : Ends P p Q) (hpost : ∀ a st, Q a st → Q' a st) :
    Ends P' p Q' :=
  fun faults st a st' hP hrun => hpost _ _ (h faults st a st' (hpre _ hP) hrun)

/-- A computation that may raise. -/
theorem ofExcept (r : Except σ.Error α) :
    Ends P (Program.ofExcept r) fun a st => r = .ok a ∧ P st := by
  intro faults st a st' hP hrun
  cases hrun
  exact ⟨rfl, hP⟩

/-- What every statement that satisfies `A` keeps, a program of such statements keeps. -/
theorem of_only {A : Stmt σ → Prop} (hp : p.Only A) (h : ∀ s st, A s → P st → P (st.effect s))
    (hskip : ∀ st, P st → P st.skip) : Ends P p fun _ st => P st := by
  intro faults st a st' hP hrun
  have hinv : P (Trial.run faults p st).2 := by
    refine hp.run_invariant ?_ hP
    intro s st' hs hP'
    rcases Trial.exec_state faults s st' with he | he
    · rw [he]
      exact h s _ hs hP'
    · rw [he]
      exact hskip _ hP'
  rw [hrun] at hinv
  exact hinv

end Ends

/-! ## Inside a unit of work -/

/-- The rules of `Ends` for a program that leaves the commit to its unit of work. -/
structure Body {σ : Schema} {α : Type} (P : Trial σ → Prop) (p : Prog σ α)
    (Q : α → Trial σ → Prop) : Prop where
  noCommit : p.Only fun s => s.isCommit = false
  ends : Ends P p Q

namespace Body

variable {σ : Schema} {α β : Type} {P P' : Trial σ → Prop} {Q Q' : α → Trial σ → Prop}
  {p : Prog σ α}

theorem done {a : α} (h : ∀ st, P st → Q a st) : Body P (.done (.ok a)) Q := ⟨trivial, .done h⟩

theorem raise (e : σ.Error) : Body P (.done (.error e)) Q := ⟨trivial, .raise e⟩

theorem lift {s : Stmt σ} {Q : s.Res → Trial σ → Prop} (hs : s.isCommit = false)
    (h : ∀ st a, P st → (World.exec s st.world).1 = .ok a → Q a (st.effect s)) :
    Body P (Program.lift s) Q :=
  ⟨.lift hs, .lift h⟩

theorem bind {R : β → Trial σ → Prop} {f : α → Prog σ β} (h : Body P p Q)
    (hf : ∀ a, Body (Q a) (f a) R) : Body P (p >>= f) R :=
  ⟨h.noCommit.bind fun a => (hf a).noCommit, h.ends.bind fun a => (hf a).ends⟩

theorem mono (hpre : ∀ st, P' st → P st) (h : Body P p Q) (hpost : ∀ a st, Q a st → Q' a st) :
    Body P' p Q' :=
  ⟨h.noCommit, h.ends.mono hpre hpost⟩

theorem ofExcept (r : Except σ.Error α) :
    Body P (Program.ofExcept r) fun a st => r = .ok a ∧ P st :=
  ⟨trivial, .ofExcept r⟩

/-- A fact about the past stays. -/
theorem frame {φ : Prop} (h : Body P p Q) :
    Body (fun st => φ ∧ P st) p fun a st => φ ∧ Q a st :=
  ⟨h.noCommit, fun faults st a st' hP hrun => ⟨hP.1, h.ends faults st a st' hP.2 hrun⟩⟩

/-- A program that only reads keeps what holds of the world. -/
theorem reads {P : World σ → Prop} (hp : p.Only fun s => s.isQuery = true) :
    Body (fun st => P st.world) p fun _ st => P st.world := by
  refine ⟨hp.mono fun _ => Stmt.isCommit_of_isQuery, Ends.of_only hp ?_ fun st h => h⟩
  intro s st hs h
  cases s with
  | query q => exact h
  | update | add | assign | emit | flush | commit | rollback => cases hs

/-- Of a program that leaves the commit to its unit of work nothing more is said. -/
theorem any (hp : p.Only fun s => s.isCommit = false) : Body P p fun _ _ => True :=
  ⟨hp, fun _ _ _ _ _ _ => trivial⟩

end Body

/-! ## Units of work -/

section Uow

variable {σ : Schema} {α : Type} {P : Trial σ → Prop} {Q : α → Trial σ → Prop}
  {body : Prog σ α} {faults : Faults σ} {st st' : Trial σ}

/-- Closing the session, whether it fails or not, leaves what was committed and announced. -/
theorem exec_rollback_state (faults : Faults σ) (st : Trial σ) :
    (Trial.exec faults .rollback st).2.committed = st.committed ∧
      (Trial.exec faults .rollback st).2.world.committed.row = st.world.committed.row ∧
      (Trial.exec faults .rollback st).2.world.emitted = st.world.emitted := by
  rcases Trial.exec_state faults .rollback st with he | he
  · rw [he]
    exact ⟨Bool.or_false _, rfl, rfl⟩
  · rw [he]
    exact ⟨rfl, rfl, rfl⟩

/-- A commit that succeeds has flushed the session. -/
theorem exec_commit_state (hst : st.committed = false)
    (hc : (Trial.exec faults .commit st).2.committed = true) :
    ∃ db, st.world.view.flush st.world.session = .ok db ∧
      (Trial.exec faults .commit st).2.world.committed = db ∧
      (Trial.exec faults .commit st).2.world.emitted = st.world.emitted := by
  rcases Trial.exec_state faults .commit st with he | he
  · rw [he] at hc ⊢
    unfold Trial.effect at hc ⊢
    rw [hst, Bool.false_or] at hc
    rcases World.exec_commit_cases st.world with ⟨db, hf, hx⟩ | ⟨e, -, hx⟩
    · rw [hx]
      exact ⟨db, hf, rfl, rfl⟩
    · rw [hx] at hc
      cases hc
  · rw [he] at hc
    change st.committed = true at hc
    rw [hst] at hc
    cases hc

/-- The way a unit of work ends after its body ended normally. -/
theorem close_eq_ok {ε : Type} {x c : Except ε Unit} {a b : α}
    (h : (x >>= fun _ => c >>= fun _ => Except.ok a) = .ok b) : b = a := by
  cases x with
  | error e => cases h
  | ok u =>
    cases c with
    | error e => cases h
    | ok v =>
      cases h
      rfl

/-- A unit of work whose commit has succeeded has committed what the session held when its body
ended normally, and returns what the body did, if anything. -/
theorem Body.committed {r : Except σ.Error α} (h : Body P body Q) (hP : P st)
    (hst : st.committed = false) (hrun : Trial.run faults (withUow body) st = (r, st'))
    (hc : st'.committed = true) :
    ∃ a st₁ db, Q a st₁ ∧ st₁.world.view.flush st₁.world.session = .ok db ∧
      st'.world.committed.row = db.row ∧ st'.world.emitted = st₁.world.emitted ∧
      (∀ b, r = .ok b → b = a) := by
  have hflag := Trial.committed_eq faults st body h.noCommit
  unfold withUow at hrun
  rw [Trial.run, Program.run_onExit] at hrun
  rcases hb : Program.run (Trial.exec faults) body st with ⟨x, st₁⟩
  rw [Trial.run, hb] at hflag
  rw [hb] at hrun
  cases x with
  | error e =>
    obtain ⟨-, rfl⟩ := Prod.mk.inj hrun
    rw [(exec_rollback_state faults _).1, (exec_rollback_state faults st₁).1, hflag, hst] at hc
    cases hc
  | ok a =>
    dsimp only [Program.run_step, Program.run_done] at hrun
    obtain ⟨hr, rfl⟩ := Prod.mk.inj hrun
    obtain ⟨hflag₂, hrow, hemit⟩ := exec_rollback_state faults (Trial.exec faults .commit st₁).2
    rw [hflag₂] at hc
    obtain ⟨db, hf, hdb, hemit'⟩ := exec_commit_state (hflag.trans hst) hc
    refine ⟨a, st₁, db, h.ends faults st a st₁ hP hb, hf, ?_, hemit.trans hemit', ?_⟩
    · rw [hrow, hdb]
    · intro b hrb
      exact close_eq_ok (hr.trans hrb)

end Uow

/-! ## Refusals -/

/-- Nothing has been written since the committed rows were those of `db`. -/
structure Trial.Kept {σ : Schema} (db : Db σ) (st : Trial σ) : Prop where
  idle : st.world.Idle
  row_eq : st.world.committed.row = db.row
  open_eq : st.committed = false

/-- Nothing has been committed since the committed rows were those of `db`. -/
structure Trial.Open {σ : Schema} (db : Db σ) (st : Trial σ) : Prop where
  row_eq : st.world.committed.row = db.row
  open_eq : st.committed = false

section Refusals

variable {σ : Schema} {α : Type} {db : Db σ} {p body : Prog σ α} {st : Trial σ}

theorem Trial.kept_start (db : Db σ) : (Trial.start db).Kept db :=
  ⟨World.idle_ofDb db [], rfl, rfl⟩

theorem Trial.Kept.isOpen (h : st.Kept db) : st.Open db := ⟨h.row_eq, h.open_eq⟩

/-- A program that only reads writes nothing. -/
theorem Body.keeps (hp : p.Only fun s => s.isQuery = true) :
    Body (Trial.Kept db) p fun _ st => st.Kept db := by
  refine ⟨hp.mono fun _ => Stmt.isCommit_of_isQuery, Ends.of_only hp ?_ ?_⟩
  · intro s st hs h
    cases s with
    | query q => exact ⟨h.idle, h.row_eq, (Bool.or_false _).trans h.open_eq⟩
    | update | add | assign | emit | flush | commit | rollback => cases hs
  · exact fun st h => ⟨h.idle, h.row_eq, h.open_eq⟩

/-- A program without a commit commits nothing. -/
theorem Body.stays (hp : p.Only fun s => s.isCommit = false) :
    Body (Trial.Open db) p fun _ st => st.Open db := by
  refine ⟨hp, fun faults st a st' h hrun => ?_⟩
  have hflag := Trial.committed_eq faults st p hp
  rw [hrun, h.open_eq] at hflag
  have hrow := Trial.row_of_not_committed faults st p (by rw [hrun]; exact hflag)
  rw [hrun, h.row_eq] at hrow
  exact ⟨hrow, hflag⟩

/-- A rollback undoes all that was written. -/
theorem Body.rollback : Body (Trial.Open db) (Program.lift .rollback) fun _ st => st.Kept db :=
  .lift rfl fun _ _ h _ => ⟨World.idle_undo _, h.row_eq, (Bool.or_false _).trans h.open_eq⟩

/-- **Refusals.** If a body has written nothing, or undone all it wrote, wherever it ends with a
refusal, then a unit of work that refuses leaves the committed rows as they were. -/
theorem Body.refuses {C : α → Prop} (h : Body (Trial.Kept db) body fun a st => C a → st.Kept db) :
    Ends (Trial.Kept db) (withUow body) fun a st => C a → st.world.committed.row = db.row := by
  intro faults st b st' hkept hrun hb
  cases hc : st'.committed with
  | false =>
    have hrow := Trial.row_of_not_committed faults st (withUow body)
      (by rw [hrun]; exact hc)
    rw [hrun] at hrow
    exact hrow.trans hkept.row_eq
  | true =>
    obtain ⟨a, st₁, db', hQ, hf, hrow, -, hab⟩ := h.committed hkept hkept.open_eq hrun hc
    have hkept₁ := hQ (hab b rfl ▸ hb)
    rw [hkept₁.idle.session_eq, Db.flush_empty] at hf
    cases hf
    rw [hrow, hkept₁.idle.row_eq, hkept₁.row_eq]

end Refusals

end TxStore
