import ApiTemplate.Telemetry.Alerts
import ApiTemplate.Telemetry.Postgres
import Mathlib.Data.List.Perm.Subperm

/-!
# What the tables hold

The daemon beside the database of its Postgres writer. `_handle_batch` runs when the consumer task
of that writer is in it, and what the database refuses may be another thing each time. Over a run
the tables gain the events of the writer's rule, each at most once; if the database refuses none of
them and no queue overflows, they have gained all of them when the daemon is closed.
-/

namespace ApiTemplate.Telemetry

open TxStore

/-! ## One batch -/

namespace PostgresWriter

variable (w : PostgresWriter) (db : Database) (batch : List TelemetryEvent)

/-- No event of a batch is written twice. -/
theorem written_subperm : (w.written db batch).Subperm batch := by
  have hsplit : ((batch.filter fun e => !carriesTraceback e) ++
      batch.filter carriesTraceback).Perm batch :=
    List.perm_append_comm.trans (List.filter_append_perm carriesTraceback batch)
  unfold written
  dsimp only
  split_ifs
  · exact List.nil_subperm
  · exact ((List.takeWhile_sublist _).append_left _).subperm.trans hsplit.subperm

theorem written_perm_of_accepts (h : ∀ e ∈ batch, w.refused db e = false) :
    (w.written db batch).Perm batch := by
  have hblocked : w.NoneBlocked db batch := by
    constructor
    · rintro ⟨e, he, -, hrefused⟩
      exact absurd ((h e he).symm.trans hrefused) Bool.false_ne_true
    · refine List.pairwise_of_forall_mem_list fun e he _ _ hrefused => ?_
      exact absurd ((h e (List.mem_filter.mp he).1).symm.trans hrefused) Bool.false_ne_true
  have hall : (batch.filter fun e => !w.refused db e) = batch :=
    List.filter_eq_self.mpr fun e he => by rw [h e he]; rfl
  have hperm := w.written_perm db batch hblocked
  rwa [hall] at hperm

end PostgresWriter

/-! ## The batches that are over -/

namespace Writer

variable {α : Type} {cfg : WriterConfig} {w w' : Writer α}

/-- The batches for which `_handle_batch` has returned or raised. -/
def finished (w : Writer α) : List (List α) :=
  match w.consumer with
  | .handling _ => w.handed.dropLast
  | _ => w.handed

theorem finished_sublist (w : Writer α) : w.finished.Sublist w.handed := by
  unfold finished
  split
  · exact List.dropLast_sublist _
  · exact List.Sublist.refl _

theorem flatten_eq_dropLast (batches : List (List α)) :
    batches.flatten = batches.dropLast.flatten ++ (batches.getLast?).getD [] := by
  rcases List.eq_nil_or_concat' batches with rfl | ⟨front, last, rfl⟩
  · rfl
  · rw [List.dropLast_concat, List.getLast?_concat, List.flatten_concat, Option.getD_some]

theorem finished_finish {raised : Bool} (hs : step cfg w (.finish raised) = some w') :
    w'.finished.flatten = w.finished.flatten ++ (w.handed.getLast?).getD [] := by
  simp only [step] at hs
  split at hs
  · rename_i stopping hconsumer
    cases hs
    have hhanded := flatten_eq_dropLast w.handed
    unfold finished
    rw [hconsumer]
    cases stopping <;> exact hhanded
  · cases hs

@[simp] theorem finished_submit (w : Writer α) (e : α) :
    (w.submit cfg e).finished = w.finished := by
  unfold submit
  split <;> rfl

theorem finished_submits (w : Writer α) (es : List α) :
    (w.submits cfg es).finished = w.finished := by
  induction es generalizing w with
  | nil => rfl
  | cons e es ih => exact (ih _).trans (finished_submit w e)

theorem finished_fill {batch : List α} (hconsumer : w.consumer = .filling batch) :
    (w.fill cfg batch).finished = w.finished := by
  have hbefore : w.finished = w.handed := by
    rw [finished, hconsumer]
  rw [hbefore]
  unfold fill
  split
  · split <;> rfl
  · rfl

/-- Only the end of a call adds to them. -/
theorem finished_of_ne {a : Action α} (ha : ∀ raised, a ≠ .finish raised)
    (hs : step cfg w a = some w') : w'.finished = w.finished := by
  cases a with
  | submit e =>
    cases hs
    exact finished_submit w e
  | finish raised => exact absurd rfl (ha raised)
  | get =>
    simp only [step] at hs
    split at hs
    · rename_i hconsumer _
      cases hs
      rw [finished, finished, hconsumer]
    · rename_i hconsumer _
      cases hs
      rw [finished, finished, hconsumer]
    · cases hs
  | timeout =>
    simp only [step] at hs
    split at hs
    · cases hs
      rfl
    · cases hs
  | top =>
    simp only [step] at hs
    split at hs
    · rename_i batch hconsumer
      cases hs
      exact finished_fill hconsumer
    · cases hs
  | call =>
    simp only [step] at hs
    split at hs
    · rename_i batch stopping hconsumer
      cases hs
      rw [finished, finished, hconsumer]
      exact List.dropLast_concat
    · cases hs
  | aclose =>
    simp only [step] at hs
    split at hs
    · cases hs
      rfl
    · cases hs
  | put =>
    simp only [step] at hs
    split at hs
    · split at hs
      · cases hs
      · cases hs
        rfl
    · cases hs
  | join =>
    simp only [step] at hs
    split at hs
    · cases hs
      rfl
    · cases hs

end Writer

/-! ## The daemon and the database -/

/-- The daemon beside the tables. -/
structure Recorder (Env : Type) where
  runner : Runner Env
  tables : LogStore

namespace Recorder

variable {Env : Type}

/-- The batch that the consumer task of a writer has taken last. -/
def batch (r : Recorder Env) (i : ℕ) : List TelemetryEvent :=
  ((r.runner.writers i).handed.getLast?).getD []

section

variable (decode : ℚ → Bytes → Option TelemetryEvent) (composer : TelemetryComposer Env)
  (cfg : ℕ → WriterConfig) (i : ℕ) (w : PostgresWriter)

/-- A step of the daemon, with what the database refuses in it. The call of `_handle_batch` of the
writer of route `i` ends as the database has it. -/
def step (r : Recorder Env) (a : Runner.Action Env × Database) : Option (Recorder Env) :=
  (r.runner.step decode composer cfg a.1).bind fun runner =>
    match a.1 with
    | .consume k (.finish raised) =>
      if k = i then
        let (result, tables) := w.handleBatch a.2 (r.batch i) r.tables
        if raised = !result.isOk then some { runner, tables } else none
      else some { r with runner }
    | _ => some { r with runner }

/-- The database refuses no event that the writer hands over. -/
def Accepts (r : Recorder Env) (a : Runner.Action Env × Database) : Prop :=
  ∀ e ∈ (r.runner.writers i).handed.flatten, w.refused a.2 e = false

instance (r : Recorder Env) (a : Runner.Action Env × Database) : Decidable (r.Accepts i w a) :=
  inferInstanceAs (Decidable (∀ e ∈ _, _))

end

section

variable {decode : ℚ → Bytes → Option TelemetryEvent} {composer : TelemetryComposer Env}
  {cfg : ℕ → WriterConfig} {i : ℕ} {w : PostgresWriter} {r r' : Recorder Env}
  {a : Runner.Action Env × Database}

/-- The tables change when a call of `_handle_batch` ends, and the daemon does not notice. -/
theorem step_cases (hs : r.step decode composer cfg i w a = some r') :
    r.runner.step decode composer cfg a.1 = some r'.runner ∧
      ((∃ raised, a.1 = .consume i (.finish raised) ∧
          r'.tables = w.pass a.2 (r.batch i) r.tables) ∨
        (∀ raised, a.1 ≠ .consume i (.finish raised)) ∧ r'.tables = r.tables) := by
  obtain ⟨action, db⟩ := a
  obtain ⟨runner, hrunner, hs⟩ := Option.bind_eq_some_iff.mp hs
  by_cases hown : ∃ raised, action = .consume i (.finish raised)
  · obtain ⟨raised, rfl⟩ := hown
    dsimp only at hs
    rw [if_pos rfl] at hs
    obtain ⟨-, hs⟩ := Option.ite_none_right_eq_some.mp hs
    obtain rfl := Option.some.inj hs
    exact ⟨hrunner, .inl ⟨raised, rfl, rfl⟩⟩
  · have hsame : r' = { r with runner } := by
      split at hs
      · rename_i k raised haction
        have hk : k ≠ i := by
          rintro rfl
          exact hown ⟨raised, haction⟩
        rw [if_neg hk] at hs
        exact (Option.some.inj hs).symm
      · exact (Option.some.inj hs).symm
    rw [hsame]
    exact ⟨hrunner, .inr ⟨fun raised h => hown ⟨raised, h⟩, rfl⟩⟩

/-- The daemon runs as it does without the tables. -/
theorem runner_of_reach {ok : Recorder Env → Runner.Action Env × Database → Prop}
    {r₀ : Recorder Env} (h : Reach (step decode composer cfg i w) ok r₀ r) :
    Reachable (Runner.step decode composer cfg) r₀.runner r.runner := by
  induction h with
  | refl => exact .refl
  | tail _ _ hs ih => exact ih.tail trivial (step_cases hs).1

theorem finished_end {raised : Bool}
    (hs : r.runner.step decode composer cfg (.consume i (.finish raised)) = some r'.runner) :
    (r'.runner.writers i).finished.flatten =
      (r.runner.writers i).finished.flatten ++ r.batch i := by
  obtain ⟨-, hs⟩ := Option.ite_none_right_eq_some.mp hs
  obtain ⟨w, hw, hrunner⟩ := Option.map_eq_some_iff.mp hs
  rw [← hrunner]
  show (Function.update r.runner.writers i w i).finished.flatten = _
  rw [Function.update_self]
  exact Writer.finished_finish hw

theorem finished_update {s : Runner Env} {k : ℕ} {b : Writer.Action TelemetryEvent}
    {w : Writer TelemetryEvent} (hw : (s.writers k).step (cfg k) b = some w)
    (hb : k = i → ∀ raised, b ≠ .finish raised) :
    (Function.update s.writers k w i).finished = (s.writers i).finished := by
  by_cases hk : k = i
  · subst hk
    rw [Function.update_self]
    exact Writer.finished_of_ne (hb rfl) hw
  · rw [Function.update_of_ne (Ne.symm hk)]

/-- No other step of the daemon ends a call of `_handle_batch` of the writer. -/
theorem finished_frame {s s' : Runner Env} {b : Runner.Action Env}
    (hb : ∀ raised, b ≠ .consume i (.finish raised))
    (hs : s.step decode composer cfg b = some s') :
    (s'.writers i).finished = (s.writers i).finished := by
  obtain ⟨-, daemon, -, -, -, rfl⟩ | ⟨env, event, queue, -, -, -, -, rfl⟩ |
    ⟨k, c, w, rfl, -, -, hw, rfl⟩ | ⟨-, -, rfl⟩ | ⟨daemon, -, -, -, rfl⟩ |
    ⟨k, c, w, -, -, -, hc, hw, rfl⟩ := Runner.step_cases hs
  · rfl
  · rw [(s.dispatch_frame composer cfg env event _).1, Runner.submitAll_apply]
    exact Writer.finished_submits _ _
  · refine finished_update hw fun hk raised hfinish => hb raised ?_
    rw [hk, hfinish]
  · rfl
  · rfl
  · refine finished_update hw fun _ raised hfinish => ?_
    rw [hfinish] at hc
    cases hc

/-! ## The books of the tables -/

/-- The tables have gained entries of events of finished batches, each at most once; if the database
refuses nothing, of all of them. -/
def Books (i : ℕ) (w : PostgresWriter) (t₀ : LogStore) (accepting : Prop) (r : Recorder Env) :
    Prop :=
  ∃ stored : List TelemetryEvent, r.tables.view = t₀.view ++ stored.map w.entry ∧
    stored.Subperm (r.runner.writers i).finished.flatten ∧
    (accepting → stored.Perm (r.runner.writers i).finished.flatten)

theorem Books.step {t₀ : LogStore} {accepting : Prop} (h : r.Books i w t₀ accepting)
    (hpool : w.pool = true) (hok : accepting → r.Accepts i w a)
    (hs : r.step decode composer cfg i w a = some r') : r'.Books i w t₀ accepting := by
  obtain ⟨stored, hview, hsub, hall⟩ := h
  obtain ⟨hrunner, ⟨raised, haction, htables⟩ | ⟨hne, htables⟩⟩ := step_cases hs
  · have hfinished := finished_end (haction ▸ hrunner)
    refine ⟨stored ++ w.written a.2 (r.batch i), ?_, ?_, fun haccepting => ?_⟩
    · rw [htables, w.view_pass _ _ _ hpool, hview, List.map_append, List.append_assoc]
    · rw [hfinished]
      exact hsub.append (w.written_subperm a.2 _)
    · rw [hfinished]
      refine (hall haccepting).append (w.written_perm_of_accepts a.2 _ fun e he => ?_)
      refine hok haccepting e ?_
      rw [Writer.flatten_eq_dropLast]
      exact List.mem_append_right _ he
  · refine ⟨stored, htables ▸ hview, ?_⟩
    rw [finished_frame hne hrunner]
    exact ⟨hsub, hall⟩

theorem books_of_reach {t₀ : LogStore} {files : FileSystem} {pattern : Path → Bool} {fromEnd : Bool}
    (accepting : Prop) (hpool : w.pool = true)
    (h : Reach (step decode composer cfg i w) (fun r a => accepting → r.Accepts i w a)
      ⟨.start files pattern fromEnd, t₀⟩ r) : r.Books i w t₀ accepting :=
  h.invariant ⟨[], (List.append_nil _).symm, List.nil_subperm, fun _ => .refl _⟩
    fun _ _ _ hbooks hok hs => hbooks.step hpool hok hs

end

/-! ## The events of the rule -/

variable {tel : TelemetryConfig} {tg : TelegramConfig} {dbcfg : DatabaseConfig}
  {routes : List (Sink × RecordFilter Env)} {decode : ℚ → Bytes → Option TelemetryEvent}
  {files : FileSystem} {pattern : Path → Bool} {fromEnd : Bool} {r : Recorder Env}

/-- What the Postgres writer is for. -/
def recorded (tel : TelemetryConfig) (event : TelemetryEvent) : Bool :=
  event.kind = KIND_SYSTEM || tel.gate event

/-- The Postgres writer is the first one, and its route passes on the events of its rule. -/
theorem passed_zero (hroutes : buildRoutes tel tg dbcfg = some routes)
    (hpostgres : tel.postgresEnabled = true) (calls : List (Env × TelemetryEvent)) :
    ∃ hzero : 0 < (composerOf tel routes).routes.length,
      Runner.passed (composerOf tel routes) ⟨0, hzero⟩ calls =
        (calls.map Prod.snd).filter (recorded tel) := by
  obtain ⟨stored, alerted, hsplit, hstored, -⟩ := buildRoutes_cases hroutes
  rw [if_pos hpostgres] at hstored
  subst hstored
  have hlength : (composerOf tel routes).routes.length = routes.length := List.length_mapIdx
  have hroutes_pos : 0 < routes.length := by
    rw [hsplit]
    exact Nat.succ_pos _
  have hzero := hlength.symm ▸ hroutes_pos
  refine ⟨hzero, (Runner.passed_eq hroutes ⟨0, hzero⟩ hroutes_pos calls).trans ?_⟩
  subst hsplit
  rfl

/-- **The tables gain the events of the rule, each at most once.** Where the database refuses none
of them and none is dropped, they have gained all of them once the daemon is closed. -/
theorem recorded_once (hroutes : buildRoutes tel tg dbcfg = some routes)
    (hpostgres : tel.postgresEnabled = true) (w : PostgresWriter) (hpool : w.pool = true)
    (t₀ : LogStore) (accepting : Prop)
    (h : Reach (step decode (composerOf tel routes) (queuesOf routes) 0 w)
      (fun r a => accepting → r.Accepts 0 w a) ⟨.start files pattern fromEnd, t₀⟩ r) :
    ∃ stored : List TelemetryEvent, r.tables.view = t₀.view ++ stored.map w.entry ∧
      stored.Subperm (r.runner.daemon.dispatched.filter (recorded tel)) ∧
      (accepting → r.runner.closed (composerOf tel routes) → (r.runner.writers 0).dropped = 0 →
        stored.Perm (r.runner.daemon.dispatched.filter (recorded tel))) := by
  obtain ⟨stored, hview, hsub, hall⟩ := books_of_reach accepting hpool h
  have hbooks := Runner.books_of_reach (runner_of_reach h)
  obtain ⟨hzero, hpassed⟩ := passed_zero hroutes hpostgres r.runner.calls
  rw [hbooks.calls] at hpassed
  obtain ⟨queued, hq⟩ := Writer.Accounts.of_reach (hbooks.writers 0)
  have haccepted := hbooks.accepted_sublist ⟨0, hzero⟩
  have hflow := hq.flow
  rw [hpassed] at haccepted
  refine ⟨stored, hview, ?_, fun haccepting hclosed hdropped => ?_⟩
  · have hhanded : (r.runner.writers 0).handed.flatten.Sublist (r.runner.writers 0).accepted := by
      rw [← hflow, List.append_assoc]
      exact List.sublist_append_left _ _
    exact hsub.trans (((Writer.finished_sublist _).flatten.trans hhanded).trans haccepted).subperm
  · have hstage := hbooks.stage
    unfold Runner.InStage at hstage
    rw [hclosed] at hstage
    have hdone := hq.closed (hstage.2.2.1 0 hzero)
    rw [hdone, (hq.stopped (by rw [hdone]; rfl)).2] at hflow
    have hlength : (r.runner.writers 0).accepted.length =
        (r.runner.daemon.dispatched.filter (recorded tel)).length := by
      rw [← hpassed, ← hbooks.submitted_eq ⟨0, hzero⟩, List.length_map,
        ← Writer.accepted_length_add_refused, ← hq.counted, hdropped, Nat.add_zero]
    have hfinished : (r.runner.writers 0).finished.flatten =
        r.runner.daemon.dispatched.filter (recorded tel) := by
      rw [← haccepted.eq_of_length hlength, ← hflow, Writer.finished, hdone]
      simp [Consumer.inFlight]
    exact hfinished ▸ hall haccepting

/-! ## A run -/

/-- What is recorded by default. -/
def onlyPostgres : Option (List (Sink × RecordFilter Unit)) :=
  buildRoutes {} {} { db := "app", user := "app", password := "app" }

theorem isSome_onlyPostgres : onlyPostgres.isSome := by decide

def plainWriter : PostgresWriter := { pool := true, encode := fun _ => "null" }

/-- A database that refuses nothing. -/
def acceptsAll : Database := ⟨fun _ => false, fun _ => false⟩

/-- An error and a record are dispatched and stored, and the daemon is closed. -/
def twoStored : Option (Recorder Unit) :=
  runActions (step Runner.severities (composerOf {} (onlyPostgres.get isSome_onlyPostgres))
      (queuesOf (onlyPostgres.get isSome_onlyPostgres)) 0 plainWriter)
    (fun r a => True → r.Accepts 0 plainWriter a) ⟨.start ∅ (fun _ => true) false, {}⟩
    ([.produce (.create apiLog 7), .produce (.append apiLog [0x65, 0x0A, 0x62, 0x0A]),
      .poll, .collect {} (fun _ => false), .deliver, .next (), .consume 0 .get, .next (),
      .consume 0 .top, .consume 0 .top, .consume 0 .call, .signal, .cancel, .close .aclose,
      .consume 0 (.finish false), .close .put, .consume 0 .get, .close .join].map
        fun a => (a, acceptsAll))

theorem isSome_twoStored : twoStored.isSome := by decide +kernel

theorem recorded_once_twoStored : ∃ stored : List TelemetryEvent, stored.length = 2 ∧
    (twoStored.get isSome_twoStored).tables.view = stored.map plainWriter.entry ∧
      stored.Perm ((twoStored.get isSome_twoStored).runner.daemon.dispatched.filter
        (recorded {})) := by
  have hend : ((twoStored.get isSome_twoStored).runner.closed
      (composerOf {} (onlyPostgres.get isSome_onlyPostgres)) ∧
        ((twoStored.get isSome_twoStored).runner.writers 0).dropped = 0) ∧
      ((twoStored.get isSome_twoStored).runner.daemon.dispatched.filter
        (recorded {})).length = 2 := by
    decide +kernel
  have hreach := Reach.of_runActions (Option.some_get isSome_twoStored).symm
  generalize twoStored.get isSome_twoStored = r at hend hreach
  obtain ⟨stored, hview, -, hall⟩ := recorded_once
    (Option.some_get isSome_onlyPostgres).symm rfl plainWriter rfl {} True hreach
  have hperm := hall trivial hend.1.1 hend.1.2
  exact ⟨stored, hperm.length_eq.trans hend.2, hview, hperm⟩

end Recorder

end ApiTemplate.Telemetry
