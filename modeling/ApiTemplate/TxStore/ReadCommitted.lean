import ApiTemplate.TxStore.Store
import ApiTemplate.TxStore.Transition

/-!
# Interleaved programs under READ COMMITTED

A `Sys` runs one program per process against a shared `Store`. `exec t` takes the next step of
process `t`: a query sees the committed rows and the versions of its own transaction; a bulk update
fixes its candidates when it begins and then visits them one by one, waiting for a row that another
transaction holds and testing its `WHERE` again on the row it finds; a commit flushes and publishes.
`fail t` is an error of the current statement (a deadlock, a lost connection, a refused publish): it
ends the open transaction, and the program sees the error. `opened` and `log` record what the
transactions did; no step depends on them.
-/

namespace TxStore

/-- What a transaction has done so far: bulk updates it began and rows they changed. -/
inductive Deed (σ : Schema) : Type
  | began (u : σ.Update)
  | hit (u : σ.Update) (i : ℕ)

/-- The state of one process. -/
structure Proc (σ : Schema) (α : Type) where
  prog : Prog σ α
  session : Session σ := {}
  /-- Inside a bulk update: the rows still to visit and the number of rows changed. -/
  cursor : Option (List ℕ × ℕ) := none

/-- The store, the processes, and the history. -/
structure Sys (σ : Schema) (τ α : Type) where
  store : Store σ τ
  proc : τ → Proc σ α
  emitted : List σ.Note := []
  /-- What each open transaction has done. -/
  opened : τ → List (Deed σ) := fun _ => []
  /-- What the committed transactions did, in the order of their commits. -/
  log : List (τ × Deed σ) := []

/-- The choices of the scheduler. -/
inductive Action (τ : Type) : Type
  | exec (t : τ)
  | fail (t : τ)

/-- The process an action is about. -/
def Action.proc {τ : Type} : Action τ → τ
  | .exec t => t
  | .fail t => t

/-- The statement is executed. -/
def Action.isExec {τ : Type} : Action τ → Bool
  | .exec _ => true
  | .fail _ => false

namespace Sys

variable {σ : Schema} {τ α : Type}

/-- Every process is about to start its program. -/
def start (db : Db σ) (progs : τ → Prog σ α) : Sys σ τ α where
  store := Store.ofDb db
  proc t := { prog := progs t }

variable [DecidableEq τ]

/-- Put process `t` into a state. -/
def goto (s : Sys σ τ α) (t : τ) (p : Proc σ α) : Sys σ τ α :=
  { s with proc := Function.update s.proc t p }

/-- Continue process `t` with the rest of its program. -/
def resume (s : Sys σ τ α) (t : τ) (p : Prog σ α) : Sys σ τ α :=
  s.goto t { prog := p, session := (s.proc t).session }

/-- Record a deed of the open transaction of `t`. -/
def note (s : Sys σ τ α) (t : τ) (d : Deed σ) : Sys σ τ α :=
  { s with opened := Function.update s.opened t (s.opened t ++ [d]) }

/-- End the transaction of `t` without effect. -/
def abort (s : Sys σ τ α) (t : τ) (p : Prog σ α) : Sys σ τ α :=
  { s with
    store := s.store.discard t
    proc := Function.update s.proc t { prog := p }
    opened := Function.update s.opened t [] }

/-- Publish the transaction of `t`, whose flushed versions are in `st`. -/
def publish (s : Sys σ τ α) (st : Store σ τ) (t : τ) (p : Prog σ α) : Sys σ τ α :=
  { s with
    store := st.publish t
    proc := Function.update s.proc t { prog := p }
    opened := Function.update s.opened t []
    log := s.log ++ (s.opened t).map (Prod.mk t) }

section Fields

variable (s : Sys σ τ α) (t : τ)

@[simp] theorem goto_store (p : Proc σ α) : (s.goto t p).store = s.store := rfl
@[simp] theorem goto_opened (p : Proc σ α) : (s.goto t p).opened = s.opened := rfl
@[simp] theorem goto_log (p : Proc σ α) : (s.goto t p).log = s.log := rfl
@[simp] theorem goto_proc (p : Proc σ α) : (s.goto t p).proc = Function.update s.proc t p := rfl

@[simp] theorem resume_store (p : Prog σ α) : (s.resume t p).store = s.store := rfl
@[simp] theorem resume_opened (p : Prog σ α) : (s.resume t p).opened = s.opened := rfl
@[simp] theorem resume_log (p : Prog σ α) : (s.resume t p).log = s.log := rfl
@[simp] theorem resume_proc (p : Prog σ α) : (s.resume t p).proc =
    Function.update s.proc t { prog := p, session := (s.proc t).session } := rfl

@[simp] theorem note_store (d : Deed σ) : (s.note t d).store = s.store := rfl
@[simp] theorem note_log (d : Deed σ) : (s.note t d).log = s.log := rfl
@[simp] theorem note_proc (d : Deed σ) : (s.note t d).proc = s.proc := rfl
@[simp] theorem note_opened (d : Deed σ) :
    (s.note t d).opened = Function.update s.opened t (s.opened t ++ [d]) := rfl

@[simp] theorem abort_store (p : Prog σ α) : (s.abort t p).store = s.store.discard t := rfl
@[simp] theorem abort_log (p : Prog σ α) : (s.abort t p).log = s.log := rfl
@[simp] theorem abort_opened (p : Prog σ α) :
    (s.abort t p).opened = Function.update s.opened t [] := rfl
@[simp] theorem abort_proc (p : Prog σ α) :
    (s.abort t p).proc = Function.update s.proc t { prog := p } := rfl

@[simp] theorem publish_store (st : Store σ τ) (p : Prog σ α) :
    (s.publish st t p).store = st.publish t := rfl
@[simp] theorem publish_log (st : Store σ τ) (p : Prog σ α) :
    (s.publish st t p).log = s.log ++ (s.opened t).map (Prod.mk t) := rfl
@[simp] theorem publish_opened (st : Store σ τ) (p : Prog σ α) :
    (s.publish st t p).opened = Function.update s.opened t [] := rfl
@[simp] theorem publish_proc (st : Store σ τ) (p : Prog σ α) :
    (s.publish st t p).proc = Function.update s.proc t { prog := p } := rfl

end Fields

/-- One step inside the bulk update `u` of process `t`. -/
def visit (s : Sys σ τ α) (t : τ) (u : σ.Update) (k : Except σ.Error ℕ → Prog σ α) :
    Option (Sys σ τ α) :=
  match (s.proc t).cursor with
  | none =>
    some ((s.goto t { s.proc t with cursor := some ((s.store.view t).matching u, 0) }).note t
      (.began u))
  | some ([], n) => some (s.resume t (k (.ok n)))
  | some (i :: is, n) =>
    if s.store.lockedFor t i then none
    else match s.store.visible t i with
      | none => some (s.goto t { s.proc t with cursor := some (is, n) })
      | some r =>
        if σ.guard u r then
          some (({ s with store := s.store.put t (σ.set u r) }.goto t
            { s.proc t with cursor := some (is, n + 1) }).note t (.hit u i))
        else some (s.goto t { s.proc t with cursor := some (is, n) })

/-- The next step of process `t` at the statement `c`; `none` when it has to wait. -/
def execStmt (s : Sys σ τ α) (t : τ) :
    (c : Stmt σ) → (Except σ.Error c.Res → Prog σ α) → Option (Sys σ τ α)
  | .query q, k => some (s.resume t (k (.ok (σ.answer q (s.store.view t).rows))))
  | .update u, k => s.visit t u k
  | .add row _, k =>
    some ({ s with store := s.store.reserve (s.store.base.next + 1) }.goto t
      { prog := k (.ok s.store.base.next)
        session := { (s.proc t).session with
          new := (s.proc t).session.new ++ [row s.store.base.next] } })
  | .assign p, k =>
    some (s.goto t
      { prog := k (.ok ())
        session := { (s.proc t).session with patches := (s.proc t).session.patches ++ [p] } })
  | .emit n, k => some { s.resume t (k (.ok ())) with emitted := s.emitted ++ [n] }
  | .flush, k =>
    (s.store.flush t (s.proc t).session).map fun
      | .ok st => { s with store := st }.goto t { prog := k (.ok ()) }
      | .error e => s.abort t (k (.error e))
  | .commit, k =>
    (s.store.flush t (s.proc t).session).map fun
      | .ok st => s.publish st t (k (.ok ()))
      | .error e => s.abort t (k (.error e))
  | .rollback, k => some (s.abort t (k (.ok ())))

/-- One action of the scheduler. -/
def step (s : Sys σ τ α) : Action τ → Option (Sys σ τ α)
  | .exec t =>
    match (s.proc t).prog with
    | .done _ => none
    | .step c k => s.execStmt t c k
  | .fail t =>
    match (s.proc t).prog with
    | .done _ => none
    | .step _ k => some (s.abort t (k (.error σ.failure)))

theorem step_exec {s : Sys σ τ α} {t : τ} {c : Stmt σ} {k : Except σ.Error c.Res → Prog σ α}
    (hp : (s.proc t).prog = .step c k) : s.step (.exec t) = s.execStmt t c k := by
  simp only [step, hp]

/-! ## What a step can do -/

/-- The steps of process `t`, one constructor for each effect. -/
inductive Step (s : Sys σ τ α) (t : τ) : Sys σ τ α → Prop
  | query {q k} (hp : (s.proc t).prog = .step (.query q) k) :
      Step s t (s.resume t (k (.ok (σ.answer q (s.store.view t).rows))))
  | begin {u k} (hp : (s.proc t).prog = .step (.update u) k) (hc : (s.proc t).cursor = none) :
      Step s t ((s.goto t { s.proc t with cursor := some ((s.store.view t).matching u, 0) }).note t
        (.began u))
  | hit {u k i is n r} (hp : (s.proc t).prog = .step (.update u) k)
      (hc : (s.proc t).cursor = some (i :: is, n)) (hl : s.store.lockedFor t i = false)
      (hv : s.store.visible t i = some r) (hg : σ.guard u r = true) :
      Step s t (({ s with store := s.store.put t (σ.set u r) }.goto t
        { s.proc t with cursor := some (is, n + 1) }).note t (.hit u i))
  | skip {u k i is n} (hp : (s.proc t).prog = .step (.update u) k)
      (hc : (s.proc t).cursor = some (i :: is, n)) (hl : s.store.lockedFor t i = false)
      (hv : ∀ r, s.store.visible t i = some r → σ.guard u r = false) :
      Step s t (s.goto t { s.proc t with cursor := some (is, n) })
  | finish {u k n} (hp : (s.proc t).prog = .step (.update u) k)
      (hc : (s.proc t).cursor = some ([], n)) : Step s t (s.resume t (k (.ok n)))
  | add {row keyed k} (hp : (s.proc t).prog = .step (.add row keyed) k) :
      Step s t ({ s with store := s.store.reserve (s.store.base.next + 1) }.goto t
        { prog := k (.ok s.store.base.next)
          session := { (s.proc t).session with
            new := (s.proc t).session.new ++ [row s.store.base.next] } })
  | assign {p k} (hp : (s.proc t).prog = .step (.assign p) k) :
      Step s t (s.goto t
        { prog := k (.ok ())
          session := { (s.proc t).session with patches := (s.proc t).session.patches ++ [p] } })
  | emit {n k} (hp : (s.proc t).prog = .step (.emit n) k) :
      Step s t { s.resume t (k (.ok ())) with emitted := s.emitted ++ [n] }
  | flush {k st} (hp : (s.proc t).prog = .step .flush k)
      (hf : s.store.flush t (s.proc t).session = some (.ok st)) :
      Step s t ({ s with store := st }.goto t { prog := k (.ok ()) })
  | commit {k st} (hp : (s.proc t).prog = .step .commit k)
      (hf : s.store.flush t (s.proc t).session = some (.ok st)) :
      Step s t (s.publish st t (k (.ok ())))
  | rollback {k} (hp : (s.proc t).prog = .step .rollback k) : Step s t (s.abort t (k (.ok ())))
  | raise {c k e} (hp : (s.proc t).prog = .step c k) : Step s t (s.abort t (k (.error e)))

theorem visit_cases {s s' : Sys σ τ α} {t : τ} {u : σ.Update} {k : Except σ.Error ℕ → Prog σ α}
    (hp : (s.proc t).prog = .step (.update u) k) (h : s.visit t u k = some s') : Step s t s' := by
  unfold visit at h
  cases hc : (s.proc t).cursor with
  | none =>
    rw [hc] at h
    cases h
    exact .begin hp hc
  | some c =>
    obtain ⟨is, n⟩ := c
    cases is with
    | nil =>
      rw [hc] at h
      cases h
      exact .finish hp hc
    | cons i is =>
      rw [hc] at h
      dsimp only at h
      split at h
      · cases h
      · rename_i hl
        rw [Bool.not_eq_true] at hl
        split at h
        · rename_i hv
          cases h
          exact .skip hp hc hl fun r hr => by rw [hv] at hr; cases hr
        · rename_i r hv
          split at h
          · rename_i hg
            cases h
            exact .hit hp hc hl hv hg
          · rename_i hg
            cases h
            refine .skip hp hc hl fun r' hr' => ?_
            rw [hv] at hr'
            cases hr'
            exact Bool.not_eq_true _ ▸ hg

/-- **Inversion.** Everything an action can do. -/
theorem step_cases {s s' : Sys σ τ α} {a : Action τ} (h : s.step a = some s') :
    Step s a.proc s' := by
  cases a with
  | fail t =>
    cases hp : (s.proc t).prog with
    | done r =>
      simp only [step, hp] at h
      cases h
    | step c k =>
      simp only [step, hp] at h
      cases h
      exact .raise hp
  | exec t =>
    cases hp : (s.proc t).prog with
    | done r =>
      simp only [step, hp] at h
      cases h
    | step c k =>
      rw [step_exec hp] at h
      cases c with
      | query q =>
        cases h
        exact .query hp
      | update u => exact visit_cases hp h
      | add row keyed =>
        cases h
        exact .add hp
      | assign p =>
        cases h
        exact .assign hp
      | emit n =>
        cases h
        exact .emit hp
      | flush =>
        obtain ⟨x, hf, hx⟩ := Option.map_eq_some_iff.mp h
        cases x with
        | ok st =>
          cases hx
          exact .flush hp hf
        | error e =>
          cases hx
          exact .raise hp
      | commit =>
        obtain ⟨x, hf, hx⟩ := Option.map_eq_some_iff.mp h
        cases x with
        | ok st =>
          cases hx
          exact .commit hp hf
        | error e =>
          cases hx
          exact .raise hp
      | rollback =>
        cases h
        exact .rollback hp

/-- A step leaves the other processes where they are. -/
theorem Step.proc_of_ne {s s' : Sys σ τ α} {t w : τ} (h : Step s t s') (hw : w ≠ t) :
    s'.proc w = s.proc w := by
  cases h <;> exact Function.update_of_ne hw _ _

/-- A step records nothing for the other processes. -/
theorem Step.opened_of_ne {s s' : Sys σ τ α} {t w : τ} (h : Step s t s') (hw : w ≠ t) :
    s'.opened w = s.opened w := by
  cases h <;> first | rfl | exact Function.update_of_ne hw _ _

/-- A step leaves the uncommitted versions of the other processes alone. -/
theorem Step.pending_of_ne {s s' : Sys σ τ α} {t w : τ} (h : Step s t s') (hw : w ≠ t) (i : ℕ)
    (r : σ.Row) : s'.store.pending i = some (w, r) ↔ s.store.pending i = some (w, r) := by
  cases h with
  | query | begin | skip | finish | add | assign | emit => exact Iff.rfl
  | @hit u k j is n r' hp hc hl hv hg =>
    rw [note_store, goto_store, Store.put_pending, σ.rowId_set, (s.store.view t).keyed j r' hv]
    split
    · rename_i hi
      subst hi
      refine ⟨fun hr => ?_, fun hr => absurd (Store.lockedFor_eq_false.mp hl w r hr) hw⟩
      cases hr
      exact absurd rfl hw
    · exact Iff.rfl
  | flush hp hf => exact Store.flush_pending_of_ne hf hw i r
  | commit hp hf =>
    rw [publish_store, Store.publish_pending_eq_some, Store.flush_pending_of_ne hf hw]
    exact and_iff_left hw
  | rollback | raise =>
    rw [abort_store, Store.discard_pending, Store.publish_pending_eq_some]
    exact and_iff_left hw

/-- A step leaves the committed row under an uncommitted version of another process alone. -/
theorem Step.base_of_pending {s s' : Sys σ τ α} {t w : τ} (h : Step s t s') (hw : w ≠ t) {i : ℕ}
    {r : σ.Row} (hr : s.store.pending i = some (w, r)) :
    s'.store.base.row i = s.store.base.row i := by
  cases h with
  | query | begin | hit | skip | finish | add | assign | emit | rollback | raise => rfl
  | flush hp hf => exact congrFun (Store.flush_base_row hf) i
  | commit hp hf =>
    rw [publish_store, Store.publish_base_row, ← Store.flush_base_row hf]
    refine Store.visible_of_not_pending fun r' hr' => ?_
    rw [(Store.flush_pending_of_ne hf hw i r).mpr hr] at hr'
    cases hr'
    exact hw rfl

/-- A step only adds to the log. -/
theorem Step.log_grows {s s' : Sys σ τ α} {t : τ} (h : Step s t s') : s.log <+: s'.log := by
  cases h with
  | commit => exact List.prefix_append _ _
  | _ => exact List.prefix_refl _

theorem log_of_reach {s s' : Sys σ τ α} {ok : Sys σ τ α → Action τ → Prop}
    (h : Reach step ok s s') : s.log <+: s'.log :=
  h.invariant (P := fun s' => s.log <+: s'.log) (List.prefix_refl _)
    fun _ _ _ hp _ hs => hp.trans (step_cases hs).log_grows

/-! ## The steps of a process, by its statement -/

section Exec

variable {s s' : Sys σ τ α} {t : τ}

theorem exec_query {q : σ.Query} {k : Except σ.Error (σ.Answer q) → Prog σ α}
    (hp : (s.proc t).prog = .step (.query q) k) (hs : s.step (.exec t) = some s') :
    s'.store = s.store ∧ s'.proc t = { prog := k (.ok (σ.answer q (s.store.view t).rows))
                                       session := (s.proc t).session } := by
  rw [step_exec hp] at hs
  cases hs
  exact ⟨rfl, Function.update_self _ _ _⟩

theorem exec_assign {p : σ.Patch} {k : Except σ.Error Unit → Prog σ α}
    (hp : (s.proc t).prog = .step (.assign p) k) (hs : s.step (.exec t) = some s') :
    s'.store = s.store ∧ s'.proc t = { prog := k (.ok ())
                                       session := { (s.proc t).session with
                                         patches := (s.proc t).session.patches ++ [p] } } := by
  rw [step_exec hp] at hs
  cases hs
  exact ⟨rfl, Function.update_self _ _ _⟩

theorem exec_emit {n : σ.Note} {k : Except σ.Error Unit → Prog σ α}
    (hp : (s.proc t).prog = .step (.emit n) k) (hs : s.step (.exec t) = some s') :
    s'.store = s.store ∧ s'.proc t = { prog := k (.ok ()), session := (s.proc t).session } := by
  rw [step_exec hp] at hs
  cases hs
  exact ⟨rfl, Function.update_self _ _ _⟩

/-- A bulk update fixes the rows it is going to visit. -/
theorem exec_begin {u : σ.Update} {k : Except σ.Error ℕ → Prog σ α}
    (hp : (s.proc t).prog = .step (.update u) k) (hc : (s.proc t).cursor = none)
    (hs : s.step (.exec t) = some s') :
    s'.store = s.store ∧
      s'.proc t = { s.proc t with cursor := some ((s.store.view t).matching u, 0) } := by
  rw [step_exec hp] at hs
  change s.visit t u k = some s' at hs
  unfold visit at hs
  rw [hc] at hs
  cases hs
  exact ⟨rfl, Function.update_self _ _ _⟩

/-- A bulk update changes the row it visits, if it still matches, and otherwise passes on. -/
theorem exec_visit {u : σ.Update} {k : Except σ.Error ℕ → Prog σ α} {i n : ℕ} {is : List ℕ}
    {r : σ.Row} (hp : (s.proc t).prog = .step (.update u) k)
    (hc : (s.proc t).cursor = some (i :: is, n)) (hv : s.store.visible t i = some r)
    (hs : s.step (.exec t) = some s') :
    (σ.guard u r = true ∧ s'.store = s.store.put t (σ.set u r) ∧
        s'.proc t = { s.proc t with cursor := some (is, n + 1) }) ∨
      (σ.guard u r = false ∧ s'.store = s.store ∧
        s'.proc t = { s.proc t with cursor := some (is, n) }) := by
  rw [step_exec hp] at hs
  change s.visit t u k = some s' at hs
  unfold visit at hs
  rw [hc] at hs
  dsimp only at hs
  split at hs
  · cases hs
  · rw [hv] at hs
    dsimp only at hs
    split at hs
    · rename_i hg
      cases hs
      exact Or.inl ⟨hg, rfl, Function.update_self _ _ _⟩
    · rename_i hg
      cases hs
      exact Or.inr ⟨Bool.not_eq_true _ ▸ hg, rfl, Function.update_self _ _ _⟩

theorem exec_finish {u : σ.Update} {k : Except σ.Error ℕ → Prog σ α} {n : ℕ}
    (hp : (s.proc t).prog = .step (.update u) k) (hc : (s.proc t).cursor = some ([], n))
    (hs : s.step (.exec t) = some s') :
    s'.store = s.store ∧ s'.proc t = { prog := k (.ok n), session := (s.proc t).session } := by
  rw [step_exec hp] at hs
  change s.visit t u k = some s' at hs
  unfold visit at hs
  rw [hc] at hs
  cases hs
  exact ⟨rfl, Function.update_self _ _ _⟩

/-- A commit whose session can be flushed publishes what the flush has made. -/
theorem exec_commit {k : Except σ.Error Unit → Prog σ α} {db : Db σ}
    (hp : (s.proc t).prog = .step .commit k)
    (hf : (s.store.view t).flush (s.proc t).session = .ok db) (hs : s.step (.exec t) = some s') :
    s'.store.base.row = db.row ∧ (∀ i r, s'.store.pending i ≠ some (t, r)) ∧
      s'.proc t = { prog := k (.ok ()) } := by
  rw [step_exec hp] at hs
  obtain ⟨x, hx, hmap⟩ := Option.map_eq_some_iff.mp hs
  cases x with
  | error e =>
    unfold Store.flush at hx
    rw [hf] at hx
    split at hx
    · cases hx
    · cases hx
  | ok st =>
    cases hmap
    obtain ⟨db', hf', hvis⟩ := Store.flush_visible hx
    rw [hf] at hf'
    cases hf'
    refine ⟨funext hvis, fun i r hr => ?_, Function.update_self _ _ _⟩
    exact (Store.publish_pending_eq_some.mp hr).2 rfl

theorem exec_rollback {k : Except σ.Error Unit → Prog σ α}
    (hp : (s.proc t).prog = .step .rollback k) (hs : s.step (.exec t) = some s') :
    s'.store.base.row = s.store.base.row ∧ (∀ i r, s'.store.pending i ≠ some (t, r)) ∧
      s'.proc t = { prog := k (.ok ()) } := by
  rw [step_exec hp] at hs
  cases hs
  refine ⟨rfl, fun i r hr => ?_, Function.update_self _ _ _⟩
  exact (Store.publish_pending_eq_some.mp hr).2 rfl

theorem exec_done {r : Except σ.Error α} (hp : (s.proc t).prog = .done r) :
    s.step (.exec t) = none := by
  simp only [step, hp]

end Exec

end Sys

end TxStore
