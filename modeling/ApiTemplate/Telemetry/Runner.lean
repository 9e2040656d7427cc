import ApiTemplate.Telemetry.Composer
import ApiTemplate.Telemetry.FailedReads
import ApiTemplate.Telemetry.Writer

/-!
# The telemetry daemon

`run` of `runner.py` as one system: the reader and `_consume`, the composer, and behind each route a
writer with its own consumer task. Producers, polls, dispatches, the steps of the writers and the
shutdown come in any order. Each route has a writer of its own.
-/

namespace ApiTemplate.Telemetry

open TxStore

/-! ## The steps of a writer -/

namespace Writer

variable {α : Type} {cfg : WriterConfig} {w w' : Writer α}

/-- A step of the consumer task. -/
def Action.consumes : Action α → Bool
  | .get | .timeout | .top | .call | .finish _ => true
  | .submit _ | .aclose | .put | .join => false

/-- A step of the task that closes the writer. -/
def Action.closes : Action α → Bool
  | .aclose | .put | .join => true
  | .submit _ | .get | .timeout | .top | .call | .finish _ => false

/-- The consumer task leaves the closer and the books of `submit`. -/
theorem step_consumes {a : Action α} (ha : a.consumes = true) (hs : step cfg w a = some w') :
    w'.closer = w.closer ∧ w'.submitted = w.submitted := by
  cases a with
  | submit e => cases ha
  | aclose => cases ha
  | put => cases ha
  | join => cases ha
  | get =>
    simp only [step] at hs
    split at hs
    · cases hs
      exact ⟨rfl, rfl⟩
    · cases hs
      exact ⟨rfl, rfl⟩
    · cases hs
  | timeout =>
    simp only [step] at hs
    split at hs
    · cases hs
      exact ⟨rfl, rfl⟩
    · cases hs
  | top =>
    simp only [step] at hs
    split at hs
    · cases hs
      unfold fill
      split
      · split <;> exact ⟨rfl, rfl⟩
      · exact ⟨rfl, rfl⟩
    · cases hs
  | call =>
    simp only [step] at hs
    split at hs
    · cases hs
      exact ⟨rfl, rfl⟩
    · cases hs
  | finish raised =>
    simp only [step] at hs
    split at hs
    · cases hs
      exact ⟨rfl, rfl⟩
    · cases hs

/-- The closing task leaves the books of `submit`. -/
theorem step_closes {a : Action α} (ha : a.closes = true) (hs : step cfg w a = some w') :
    w'.submitted = w.submitted := by
  cases a with
  | submit e => cases ha
  | get => cases ha
  | timeout => cases ha
  | top => cases ha
  | call => cases ha
  | finish raised => cases ha
  | aclose =>
    simp only [step] at hs
    split at hs
    · cases hs
      rfl
    · cases hs
  | put =>
    simp only [step] at hs
    split at hs
    · split at hs
      · cases hs
      · cases hs
        rfl
    · cases hs
  | join =>
    simp only [step] at hs
    split at hs
    · cases hs
      rfl
    · cases hs

/-- Only a submit can be late. -/
theorem noLateSubmit_of_consumes {a : Action α} (ha : a.consumes = true) : NoLateSubmit w a := by
  cases a <;> trivial

theorem noLateSubmit_of_closes {a : Action α} (ha : a.closes = true) : NoLateSubmit w a := by
  cases a <;> trivial

@[simp] theorem submit_closer (e : α) : (w.submit cfg e).closer = w.closer := by
  unfold submit
  split <;> rfl

@[simp] theorem submitted_submit (e : α) :
    (w.submit cfg e).submitted.map Prod.fst = w.submitted.map Prod.fst ++ [e] := by
  unfold submit
  split <;> simp

/-- Some submits in a row. -/
def submits (cfg : WriterConfig) (w : Writer α) (es : List α) : Writer α := es.foldl (submit cfg) w

@[simp] theorem submits_closer (w : Writer α) (es : List α) :
    (w.submits cfg es).closer = w.closer := by
  induction es generalizing w with
  | nil => rfl
  | cons e es ih => exact (ih _).trans (submit_closer e)

theorem submitted_submits (w : Writer α) (es : List α) :
    (w.submits cfg es).submitted.map Prod.fst = w.submitted.map Prod.fst ++ es := by
  induction es generalizing w with
  | nil => exact (List.append_nil _).symm
  | cons e es ih =>
    show ((w.submit cfg e).submits cfg es).submitted.map Prod.fst = _
    rw [ih, submitted_submit, List.append_assoc]
    rfl

/-- Submits to an open writer are steps of it. -/
theorem reach_submits {w₀ : Writer α} (h : Reach (step cfg) NoLateSubmit w₀ w)
    (hopen : w.closer.entered = false) (es : List α) :
    Reach (step cfg) NoLateSubmit w₀ (w.submits cfg es) := by
  induction es generalizing w with
  | nil => exact h
  | cons e es ih =>
    have hstep : step cfg w (.submit e) = some (w.submit cfg e) := rfl
    exact ih (h.tail (a := .submit e) hopen hstep) (by rw [submit_closer, hopen])

end Writer

/-! ## The steps of the reader -/

namespace Daemon

variable {decode : ℚ → Bytes → Option TelemetryEvent} {d d' : Daemon} {a : Action}

theorem collect_dispatched (call : Call) (fails : Path → Bool) :
    (d.collect decode call fails).dispatched = d.dispatched := by
  rcases collect_cases decode d call fails with ⟨batches, -, heq⟩ | ⟨tail, read, f, heq⟩
  · rw [heq]
  · rw [heq]

theorem collect_task (call : Call) (fails : Path → Bool) :
    (d.collect decode call fails).task = d.task := by
  rcases collect_cases decode d call fails with ⟨batches, -, heq⟩ | ⟨tail, read, f, heq⟩
  · rw [heq]
  · rw [heq]

/-- Only `next` dispatches. -/
theorem step_dispatched (ha : a ≠ .next) (hs : d.step decode a = some d') :
    d'.dispatched = d.dispatched := by
  obtain ⟨b, tail, -, -, -, rfl⟩ | ⟨event, queue, rfl, -, -, -, -, -⟩ | ⟨-, -, -, rfl⟩ |
    ⟨call, fails, -, -, rfl⟩ | ⟨events, -, -, -, rfl⟩ | ⟨-, -, -, rfl⟩ | ⟨-, rfl⟩ | ⟨-, -, rfl⟩ |
    ⟨-, -, rfl⟩ := step_cases hs
  case inr.inl => exact absurd rfl ha
  case inr.inr.inr.inl => exact collect_dispatched call fails
  all_goals rfl

/-- A consumer task that has ended stays so. -/
theorem step_task (hs : d.step decode a = some d') (hrun : d.task ≠ .running) :
    d'.task ≠ .running := by
  obtain ⟨b, tail, -, -, -, rfl⟩ | ⟨event, queue, -, -, hnow, -, -, -⟩ | ⟨-, hnow, -, -⟩ |
    ⟨call, fails, -, -, rfl⟩ | ⟨events, -, hnow, -, -⟩ | ⟨-, hnow, -, -⟩ | ⟨-, rfl⟩ |
    ⟨-, hnow, -⟩ | ⟨-, -, rfl⟩ := step_cases hs
  · exact hrun
  · exact absurd hnow hrun
  · exact absurd hnow hrun
  · rw [collect_task]
    exact hrun
  · exact absurd hnow hrun
  · exact absurd hnow hrun
  · exact hrun
  · exact absurd hnow hrun
  · exact hrun

theorem step_cancel (hs : d.step decode .cancel = some d') : d'.task ≠ .running := by
  simp only [step] at hs
  split at hs
  · cases hs
    simp
  · rename_i hrun
    cases hs
    exact hrun

end Daemon

/-! ## The system -/

/-- Where `run` stands. -/
inductive Stage
  /-- waiting for a signal -/
  | running
  /-- between `reader.aclose()` and `consume.cancel()` -/
  | stopping
  /-- in `composer.aclose()`, with the number of writers that are closed -/
  | closing (count : ℕ)
  deriving DecidableEq

/-- The daemon with its writers, by the number of their routes. `calls` lists the calls of
`dispatch`, with what the filters read in each, and `escaped` is the exception with which a global
filter has ended `_consume`. -/
structure Runner (Env : Type) where
  daemon : Daemon
  writers : ℕ → Writer TelemetryEvent := fun _ => {}
  stage : Stage := .running
  calls : List (Env × TelemetryEvent) := []
  escaped : Option String := none

namespace Runner

variable {Env : Type}

inductive Action (Env : Type)
  /-- a producer writes, creates or renames a file -/
  | produce (a : Telemetry.Action)
  /-- `__anext__` finds its queue empty and hands `collect` to the executor -/
  | poll
  /-- the executor runs `collect` -/
  | collect (call : Call) (fails : Path → Bool)
  /-- `__anext__` goes on with what `collect` has returned or raised -/
  | deliver
  /-- `__anext__` takes an event off the queue, and it is dispatched -/
  | next (env : Env)
  /-- `__anext__` finds the reader closed -/
  | stop
  /-- the consumer task of a writer takes a step -/
  | consume (route : ℕ) (a : Writer.Action TelemetryEvent)
  /-- a signal arrives, and `reader.aclose()` is called -/
  | signal
  /-- `consume.cancel()` -/
  | cancel
  /-- `composer.aclose()` takes a step in the `aclose` of the next writer -/
  | close (a : Writer.Action TelemetryEvent)

/-- The action as a step of the reader and `_consume` alone. -/
def Action.reads : Action Env → Option Daemon.Action
  | .produce a => some (.produce a)
  | .poll => some .poll
  | .collect call fails => some (.collect call fails)
  | .deliver => some .deliver
  | .stop => some .stop
  | _ => none

/-- The submissions of one dispatch reach the queues of their writers. -/
def submitAll (cfg : ℕ → WriterConfig) (writers : ℕ → Writer TelemetryEvent) :
    List Submission → ℕ → Writer TelemetryEvent
  | [] => writers
  | submission :: submissions =>
    submitAll cfg
      (Function.update writers submission.route
        ((writers submission.route).submit (cfg submission.route) submission.event))
      submissions

section

variable (decode : ℚ → Bytes → Option TelemetryEvent) (composer : TelemetryComposer Env)
  (cfg : ℕ → WriterConfig)

/-- The reader and `_consume` take a step. -/
def read (s : Runner Env) (a : Daemon.Action) : Option (Runner Env) :=
  (s.daemon.step decode a).map fun daemon => { s with daemon }

/-- `composer.dispatch(event)` for the event at the head of the queue. An exception of a global
filter leaves `_consume`. -/
def dispatch (s : Runner Env) (env : Env) (event : TelemetryEvent) (daemon : Daemon) :
    Runner Env :=
  let (result, submissions) := composer.dispatch env event
  let s' := { s with
    daemon
    writers := submitAll cfg s.writers submissions
    calls := s.calls ++ [(env, event)] }
  match result with
  | .ok _ => s'
  | .error exc => { s' with daemon := { daemon with task := .ended }, escaped := some exc }

def step (s : Runner Env) : Action Env → Option (Runner Env)
  | .produce a => s.read decode (.produce a)
  | .poll => s.read decode .poll
  | .collect call fails => s.read decode (.collect call fails)
  | .deliver => s.read decode .deliver
  | .next env =>
    match s.daemon.queue with
    | [] => none
    | event :: _ => (s.daemon.step decode .next).map (s.dispatch composer cfg env event)
  | .stop => s.read decode .stop
  | .consume i a =>
    if i < composer.routes.length ∧ a.consumes = true then
      ((s.writers i).step (cfg i) a).map fun w =>
        { s with writers := Function.update s.writers i w }
    else none
  | .signal =>
    match s.stage with
    | .running => (s.read decode .aclose).map fun s => { s with stage := .stopping }
    | _ => none
  | .cancel =>
    match s.stage with
    | .stopping => (s.read decode .cancel).map fun s => { s with stage := .closing 0 }
    | _ => none
  | .close a =>
    match s.stage with
    | .closing k =>
      if k < composer.routes.length ∧ a.closes = true then
        ((s.writers k).step (cfg k) a).map fun w =>
          { s with
            writers := Function.update s.writers k w
            stage := .closing (if w.closer = .closed then k + 1 else k) }
      else none
    | _ => none

end

/-- The daemon when `composer.start()` has returned. -/
def start (files : FileSystem) (pattern : Path → Bool) (fromEnd : Bool) : Runner Env where
  daemon := .start files pattern fromEnd

/-- `composer.aclose()` has returned. -/
def closed (composer : TelemetryComposer Env) (s : Runner Env) : Prop :=
  s.stage = .closing composer.routes.length

instance (composer : TelemetryComposer Env) (s : Runner Env) : Decidable (s.closed composer) :=
  inferInstanceAs (Decidable (_ = _))

/-! ## What a dispatch submits -/

/-- A writer gets the submissions of its route, in order. -/
theorem submitAll_apply (cfg : ℕ → WriterConfig) (writers : ℕ → Writer TelemetryEvent)
    (submissions : List Submission) (i : ℕ) :
    submitAll cfg writers submissions i =
      (writers i).submits (cfg i) ((submissions.filter (·.route = i)).map (·.event)) := by
  induction submissions generalizing writers with
  | nil => rfl
  | cons submission submissions ih =>
    rw [submitAll, ih, List.filter_cons]
    by_cases hi : submission.route = i
    · subst hi
      rw [Function.update_self, if_pos (by simp)]
      rfl
    · rw [Function.update_of_ne (Ne.symm hi), if_neg (by simpa using hi)]

section

variable {decode : ℚ → Bytes → Option TelemetryEvent} {composer : TelemetryComposer Env}
  {cfg : ℕ → WriterConfig} {s s' : Runner Env}

/-- A step of the reader and `_consume` leaves the rest. -/
theorem read_cases {a : Action Env} {b : Daemon.Action} (ha : a.reads = some b) (hb : b ≠ .next)
    (hs : s.read decode b = some s') :
    ∃ b daemon, a.reads = some b ∧ s.daemon.step decode b = some daemon ∧ b ≠ .next ∧
      s' = { s with daemon } := by
  obtain ⟨daemon, hd, rfl⟩ := Option.map_eq_some_iff.mp hs
  exact ⟨b, daemon, ha, hd, hb, rfl⟩

/-- What a step does: to the reader alone, to the head of its queue, to one writer, or to the
stage. -/
theorem step_cases {a : Action Env} (hs : s.step decode composer cfg a = some s') :
    (∃ b daemon, a.reads = some b ∧ s.daemon.step decode b = some daemon ∧
      b ≠ .next ∧ s' = { s with daemon }) ∨
    (∃ env event queue, a = .next env ∧ s.daemon.queue = event :: queue ∧
      s.daemon.task = .running ∧
      s.daemon.step decode .next =
        some { s.daemon with queue, dispatched := s.daemon.dispatched ++ [event] } ∧
      s' = s.dispatch composer cfg env event
        { s.daemon with queue, dispatched := s.daemon.dispatched ++ [event] }) ∨
    (∃ i b w, a = .consume i b ∧ i < composer.routes.length ∧ b.consumes = true ∧
      (s.writers i).step (cfg i) b = some w ∧
      s' = { s with writers := Function.update s.writers i w }) ∨
    (a = .signal ∧ s.stage = .running ∧
      s' = { s with daemon := { s.daemon with closed := true }, stage := .stopping }) ∨
    (∃ daemon, a = .cancel ∧ s.stage = .stopping ∧ s.daemon.step decode .cancel = some daemon ∧
      s' = { s with daemon, stage := .closing 0 }) ∨
    (∃ k b w, a = .close b ∧ s.stage = .closing k ∧ k < composer.routes.length ∧
      b.closes = true ∧ (s.writers k).step (cfg k) b = some w ∧
      s' = { s with
        writers := Function.update s.writers k w
        stage := .closing (if w.closer = .closed then k + 1 else k) }) := by
  cases a with
  | produce b => exact .inl (read_cases rfl (by simp) hs)
  | poll => exact .inl (read_cases rfl (by simp) hs)
  | collect call fails => exact .inl (read_cases rfl (by simp) hs)
  | deliver => exact .inl (read_cases rfl (by simp) hs)
  | next env =>
    simp only [step] at hs
    split at hs
    · cases hs
    · rename_i event queue hq
      obtain ⟨daemon, hd, rfl⟩ := Option.map_eq_some_iff.mp hs
      have hnext := hd
      simp only [Daemon.step, hq] at hd
      obtain ⟨hrun, hd⟩ := Option.ite_none_right_eq_some.mp hd
      obtain rfl := Option.some.inj hd
      exact .inr (.inl ⟨env, event, queue, rfl, hq, hrun.1, hnext, rfl⟩)
  | stop => exact .inl (read_cases rfl (by simp) hs)
  | consume i b =>
    simp only [step] at hs
    split at hs
    · rename_i hi
      obtain ⟨w, hw, rfl⟩ := Option.map_eq_some_iff.mp hs
      exact .inr (.inr (.inl ⟨i, b, w, rfl, hi.1, hi.2, hw, rfl⟩))
    · cases hs
  | signal =>
    simp only [step] at hs
    split at hs
    · rename_i hstage
      cases hs
      exact .inr (.inr (.inr (.inl ⟨rfl, hstage, rfl⟩)))
    · cases hs
  | cancel =>
    simp only [step] at hs
    split at hs
    · rename_i hstage
      obtain ⟨s₁, hs₁, rfl⟩ := Option.map_eq_some_iff.mp hs
      obtain ⟨daemon, hd, rfl⟩ := Option.map_eq_some_iff.mp hs₁
      exact .inr (.inr (.inr (.inr (.inl ⟨daemon, rfl, hstage, hd, rfl⟩))))
    · cases hs
  | close b =>
    simp only [step] at hs
    split at hs
    · rename_i k hstage
      split at hs
      · rename_i hk
        obtain ⟨w, hw, rfl⟩ := Option.map_eq_some_iff.mp hs
        exact .inr (.inr (.inr (.inr (.inr ⟨k, b, w, rfl, hstage, hk.1, hk.2, hw, rfl⟩))))
      · cases hs
    · cases hs

/-- What a dispatch leaves. The daemon is as `next` leaves it, or its task has ended as well. -/
theorem dispatch_frame (composer : TelemetryComposer Env) (cfg : ℕ → WriterConfig)
    (s : Runner Env) (env : Env) (event : TelemetryEvent) (daemon : Daemon) :
    (s.dispatch composer cfg env event daemon).writers =
        submitAll cfg s.writers (composer.dispatch env event).2 ∧
      (s.dispatch composer cfg env event daemon).calls = s.calls ++ [(env, event)] ∧
      (s.dispatch composer cfg env event daemon).stage = s.stage ∧
      ((s.dispatch composer cfg env event daemon).daemon = daemon ∨
        (s.dispatch composer cfg env event daemon).daemon = { daemon with task := .ended }) := by
  unfold dispatch
  rcases composer.dispatch env event with ⟨exc | u, submissions⟩
  · exact ⟨rfl, rfl, rfl, .inr rfl⟩
  · exact ⟨rfl, rfl, rfl, .inl rfl⟩

/-! ## The books of the system -/

/-- How far the shutdown has come. Until the consumer task is cancelled no writer is being closed,
and then they are closed one after the other. -/
def InStage (composer : TelemetryComposer Env) (s : Runner Env) : Prop :=
  match s.stage with
  | .running | .stopping => ∀ i, (s.writers i).closer = .idle
  | .closing k =>
    s.daemon.task ≠ .running ∧ k ≤ composer.routes.length ∧
      (∀ i < k, (s.writers i).closer = .closed) ∧ (s.writers k).closer ≠ .closed ∧
      ∀ i > k, (s.writers i).closer = .idle

/-- The daemon and each writer run as if on their own, no submit comes late, and a writer has been
given what its route lets through. -/
structure Books (decode : ℚ → Bytes → Option TelemetryEvent) (composer : TelemetryComposer Env)
    (cfg : ℕ → WriterConfig) (d₀ : Daemon) (s : Runner Env) : Prop where
  daemon : Reachable (Daemon.step decode) d₀ s.daemon
  calls : s.calls.map Prod.snd = s.daemon.dispatched
  writers : ∀ i, Reach (Writer.step (cfg i)) Writer.NoLateSubmit {} (s.writers i)
  submitted : ∀ i, (s.writers i).submitted.map Prod.fst =
    ((composer.dispatchAll s.calls).filter (·.route = i)).map (·.event)
  stage : s.InStage composer

/-- While the consumer task runs, every writer is open. -/
theorem InStage.idle (h : s.InStage composer) (hrun : s.daemon.task = .running) (i : ℕ) :
    (s.writers i).closer = .idle := by
  unfold InStage at h
  split at h
  · exact h i
  · exact h i
  · exact absurd hrun h.1

/-- The stage does not depend on the reader, except that a closing runner dispatches no more. -/
theorem InStage.frame (h : s.InStage composer) (hwriters : ∀ i,
      (s'.writers i).closer = (s.writers i).closer) (hstage : s'.stage = s.stage)
    (htask : s.daemon.task ≠ .running → s'.daemon.task ≠ .running) : s'.InStage composer := by
  unfold InStage at h ⊢
  rw [hstage]
  split at h
  · exact fun i => (hwriters i).trans (h i)
  · exact fun i => (hwriters i).trans (h i)
  · rename_i k _
    obtain ⟨hrun, hk, hbefore, hopen, hafter⟩ := h
    exact ⟨htask hrun, hk, fun i hi => (hwriters i).trans (hbefore i hi), hwriters k ▸ hopen,
      fun i hi => (hwriters i).trans (hafter i hi)⟩

theorem Books.start (files : FileSystem) (pattern : Path → Bool) (fromEnd : Bool) :
    Books decode composer cfg (.start files pattern fromEnd) (start files pattern fromEnd) where
  daemon := .refl
  calls := rfl
  writers _ := .refl
  submitted _ := rfl
  stage _ := rfl

variable {d₀ : Daemon}

/-- The daemon moves on and nothing is dispatched. -/
theorem Books.read (h : Books decode composer cfg d₀ s) {a : Daemon.Action} {daemon : Daemon}
    (ha : a ≠ .next) (hd : s.daemon.step decode a = some daemon) :
    Books decode composer cfg d₀ { s with daemon } where
  daemon := h.daemon.tail trivial hd
  calls := h.calls.trans (Daemon.step_dispatched ha hd).symm
  writers := h.writers
  submitted := h.submitted
  stage := h.stage.frame (fun _ => rfl) rfl (Daemon.step_task hd)

theorem Books.dispatch (h : Books decode composer cfg d₀ s) {env : Env} {event : TelemetryEvent}
    {queue : List TelemetryEvent} (hrun : s.daemon.task = .running)
    (hnext : s.daemon.step decode .next =
      some { s.daemon with queue, dispatched := s.daemon.dispatched ++ [event] }) :
    Books decode composer cfg d₀ (s.dispatch composer cfg env event
      { s.daemon with queue, dispatched := s.daemon.dispatched ++ [event] }) := by
  obtain ⟨hwriters, hcalls, hstage, hdaemon⟩ := s.dispatch_frame composer cfg env event
    { s.daemon with queue, dispatched := s.daemon.dispatched ++ [event] }
  have hreach := h.daemon.tail trivial hnext
  have hidle := h.stage.idle hrun
  refine ⟨?_, ?_, fun i => ?_, fun i => ?_, ?_⟩
  · rcases hdaemon with hd | hd
    · rw [hd]
      exact hreach
    · rw [hd]
      refine hreach.tail (a := .cancel) trivial ?_
      show (if s.daemon.task = .running then _ else _) = _
      rw [if_pos hrun]
  · rw [hcalls, List.map_append, h.calls]
    rcases hdaemon with hd | hd <;> rw [hd] <;> rfl
  · rw [hwriters, submitAll_apply]
    exact Writer.reach_submits (h.writers i) (by rw [hidle i]; rfl) _
  · rw [hwriters, submitAll_apply, Writer.submitted_submits, h.submitted, hcalls]
    simp [TelemetryComposer.dispatchAll]
  · refine h.stage.frame (fun i => ?_) hstage fun hended => absurd hrun hended
    rw [hwriters, submitAll_apply, Writer.submits_closer]

/-- One writer takes a step that submits nothing. -/
theorem Books.writer (h : Books decode composer cfg d₀ s) {k : ℕ}
    {b : Writer.Action TelemetryEvent} {w : Writer TelemetryEvent}
    (hok : (s.writers k).NoLateSubmit b) (hw : (s.writers k).step (cfg k) b = some w)
    (hsubmitted : w.submitted = (s.writers k).submitted) (stage : Stage)
    (hstage : InStage composer { s with writers := Function.update s.writers k w, stage }) :
    Books decode composer cfg d₀
      { s with writers := Function.update s.writers k w, stage } where
  daemon := h.daemon
  calls := h.calls
  writers i := by
    by_cases hi : i = k
    · subst hi
      show Reach _ _ _ (Function.update s.writers i w i)
      rw [Function.update_self]
      exact (h.writers i).tail hok hw
    · show Reach _ _ _ (Function.update s.writers k w i)
      rw [Function.update_of_ne hi]
      exact h.writers i
  submitted i := by
    rw [← h.submitted i]
    by_cases hi : i = k
    · subst hi
      show (Function.update s.writers i w i).submitted.map Prod.fst = _
      rw [Function.update_self, hsubmitted]
    · show (Function.update s.writers k w i).submitted.map Prod.fst = _
      rw [Function.update_of_ne hi]
  stage := hstage

theorem Books.step (h : Books decode composer cfg d₀ s) {a : Action Env}
    (hs : s.step decode composer cfg a = some s') : Books decode composer cfg d₀ s' := by
  obtain ⟨b, daemon, -, hd, hb, rfl⟩ | ⟨env, event, queue, -, -, hrun, hnext, rfl⟩ |
    ⟨i, b, w, -, hi, hb, hw, rfl⟩ | ⟨-, hstage, rfl⟩ | ⟨daemon, -, hstage, hd, rfl⟩ |
    ⟨k, b, w, -, hstage, hk, hb, hw, rfl⟩ := step_cases hs
  · exact h.read hb hd
  · exact h.dispatch hrun hnext
  · obtain ⟨hcloser, hsubmitted⟩ := Writer.step_consumes hb hw
    refine h.writer (Writer.noLateSubmit_of_consumes hb) hw hsubmitted s.stage ?_
    refine h.stage.frame (fun j => ?_) rfl id
    by_cases hj : j = i
    · subst hj
      simp [hcloser]
    · simp [Function.update_of_ne hj]
  · have hidle := h.stage
    unfold InStage at hidle
    rw [hstage] at hidle
    exact { h.read (a := .aclose) (by simp) rfl with stage := hidle }
  · have hidle := h.stage
    unfold InStage at hidle
    rw [hstage] at hidle
    refine { h.read (a := .cancel) (by simp) hd with stage := ?_ }
    exact ⟨Daemon.step_cancel hd, Nat.zero_le _, fun i hi => absurd hi (Nat.not_lt_zero i),
      fun hclosed => (by cases (hidle 0).symm.trans hclosed), fun i _ => hidle i⟩
  · refine h.writer (Writer.noLateSubmit_of_closes hb) hw (Writer.step_closes hb hw) _ ?_
    have hclosing := h.stage
    unfold InStage at hclosing
    rw [hstage] at hclosing
    obtain ⟨hended, hkn, hbefore, -, hafter⟩ := hclosing
    refine ⟨hended, ?_, fun i hi => ?_, fun hclosed => ?_, fun i hi => ?_⟩
    · split <;> omega
    · show (Function.update s.writers k w i).closer = .closed
      by_cases hik : i = k
      · subst hik
        rw [Function.update_self]
        by_contra hopen
        rw [if_neg hopen] at hi
        exact absurd hi (Nat.lt_irrefl i)
      · rw [Function.update_of_ne hik]
        refine hbefore i ?_
        split at hi <;> omega
    · by_cases hlast : w.closer = .closed
      · rw [if_pos hlast] at hclosed
        change (Function.update s.writers k w (k + 1)).closer = .closed at hclosed
        rw [Function.update_of_ne (Nat.succ_ne_self k), hafter (k + 1) (Nat.lt_succ_self k)]
          at hclosed
        cases hclosed
      · rw [if_neg hlast] at hclosed
        change (Function.update s.writers k w k).closer = .closed at hclosed
        rw [Function.update_self] at hclosed
        exact hlast hclosed
    · show (Function.update s.writers k w i).closer = .idle
      have hik : k < i := by
        split at hi <;> omega
      rw [Function.update_of_ne (Nat.ne_of_gt hik)]
      exact hafter i hik

end

/-! ## Runs -/

section

variable {decode : ℚ → Bytes → Option TelemetryEvent} {composer : TelemetryComposer Env}
  {cfg : ℕ → WriterConfig} {files : FileSystem} {pattern : Path → Bool} {fromEnd : Bool}
  {s : Runner Env}

theorem books_of_reach {ok : Runner Env → Action Env → Prop}
    (h : Reach (step decode composer cfg) ok (start files pattern fromEnd) s) :
    Books decode composer cfg (.start files pattern fromEnd) s :=
  h.invariant (.start files pattern fromEnd) fun _ _ _ h₁ _ hs => h₁.step hs

/-- A consumer task that has ended dispatches nothing more. -/
theorem step_ended {s s' : Runner Env} {a : Action Env} (hended : s.daemon.task ≠ .running)
    (hs : s.step decode composer cfg a = some s') :
    s'.daemon.task ≠ .running ∧ s'.daemon.dispatched = s.daemon.dispatched := by
  obtain ⟨b, daemon, -, hd, hb, rfl⟩ | ⟨env, event, queue, -, -, hrun, -, -⟩ |
    ⟨i, b, w, -, -, -, -, rfl⟩ | ⟨-, -, rfl⟩ | ⟨daemon, -, -, hd, rfl⟩ |
    ⟨k, b, w, -, -, -, -, -, rfl⟩ := step_cases hs
  · exact ⟨Daemon.step_task hd hended, Daemon.step_dispatched hb hd⟩
  · exact absurd hrun hended
  · exact ⟨hended, rfl⟩
  · exact ⟨hended, rfl⟩
  · exact ⟨Daemon.step_task hd hended, Daemon.step_dispatched (by simp) hd⟩
  · exact ⟨hended, rfl⟩

theorem dispatched_of_ended {s' : Runner Env} (hended : s.daemon.task ≠ .running)
    (h : Reachable (step decode composer cfg) s s') :
    s'.daemon.task ≠ .running ∧ s'.daemon.dispatched = s.daemon.dispatched := by
  refine h.invariant
    (P := fun s' => s'.daemon.task ≠ .running ∧ s'.daemon.dispatched = s.daemon.dispatched)
    ⟨hended, rfl⟩ ?_
  rintro s₁ a s₂ ⟨hended₁, hsame⟩ - hs
  obtain ⟨hended₂, hstep⟩ := step_ended hended₁ hs
  exact ⟨hended₂, hstep.trans hsame⟩

/-- What a route lets through of some calls of `dispatch`. -/
def passed (composer : TelemetryComposer Env) (i : Fin composer.routes.length)
    (calls : List (Env × TelemetryEvent)) : List TelemetryEvent :=
  (calls.filter fun call => composer.admits call.1 call.2 &&
    returnsTrue ((composer.routes.get i).destination call.1 call.2)).map Prod.snd

/-- What a writer has been given is what its route lets through. -/
theorem Books.submitted_eq {d₀ : Daemon} (h : Books decode composer cfg d₀ s)
    (i : Fin composer.routes.length) :
    (s.writers i).submitted.map Prod.fst = passed composer i s.calls :=
  (h.submitted i).trans (composer.filter_dispatchAll s.calls i)

theorem Books.accepted_sublist {d₀ : Daemon} (h : Books decode composer cfg d₀ s)
    (i : Fin composer.routes.length) :
    (s.writers i).accepted.Sublist (passed composer i s.calls) := by
  rw [← h.submitted_eq i]
  exact List.filter_sublist.map Prod.fst

/-- What a writer hands over, its route has let through. -/
theorem Books.mem_passed {d₀ : Daemon} (h : Books decode composer cfg d₀ s)
    (i : Fin composer.routes.length) {e : TelemetryEvent}
    (he : e ∈ (s.writers i).handed.flatten) : e ∈ passed composer i s.calls := by
  obtain ⟨queued, hq⟩ := Writer.Accounts.of_reach (h.writers i)
  refine (h.accepted_sublist i).subset ?_
  rw [← hq.flow, List.append_assoc]
  exact List.mem_append_left _ he

/-- **From the reader to the writers.** Under every order of polls, dispatches, writer steps and
shutdown, and whatever reads, filters and batches fail: the writer of a route has been given the
dispatched events that the route lets through, in order; it has handed over, holds or queues those
it accepted, in order; the others are counted; and once `composer.aclose()` has returned, it has
handed over every event it accepted. Until a read fails, what `collect` has returned is dispatched,
queued, or the result of a last pass that the consumer has not been woken for. Once the consumer has
ended, nothing more is dispatched: what it has not taken by then is lost. -/
theorem routes_exactly (h : Reachable (step decode composer cfg) (start files pattern fromEnd) s)
    (i : Fin composer.routes.length) :
    let writer := s.writers i
    writer.submitted.map Prod.fst = passed composer i s.calls ∧
      writer.handed.flatten ++ writer.consumer.inFlight ++ Writer.events writer.queue =
        writer.accepted ∧
      writer.accepted.Sublist (passed composer i s.calls) ∧
      (passed composer i s.calls).length = writer.accepted.length + writer.dropped ∧
      (s.closed composer → writer.handed.flatten = writer.accepted) ∧
      s.calls.map Prod.snd = s.daemon.dispatched ∧
      (s.daemon.failed = [] →
        s.daemon.dispatched ++ s.daemon.queue ++ s.daemon.polling.events =
          s.daemon.tail.log.flatMap Batch.events) ∧
      (s.daemon.task ≠ .running →
        ∀ s', Reachable (step decode composer cfg) s s' →
          s'.daemon.dispatched = s.daemon.dispatched) := by
  intro writer
  have hbooks := books_of_reach h
  obtain ⟨queued, hq⟩ := Writer.Accounts.of_reach (hbooks.writers i)
  refine ⟨hbooks.submitted_eq i, ?_, hbooks.accepted_sublist i, ?_, fun hclosed => ?_,
    hbooks.calls, fun hf => ?_, fun hended s' h' => (dispatched_of_ended hended h').2⟩
  · rw [hq.events_queue]
    exact hq.flow
  · rw [← hbooks.submitted_eq i, List.length_map, hq.counted]
    exact (Writer.accepted_length_add_refused writer).symm
  · have hstage := hbooks.stage
    unfold InStage at hstage
    rw [hclosed] at hstage
    have hdone := hq.closed (hstage.2.2.1 i i.isLt)
    have hflow := hq.flow
    rw [hdone, (hq.stopped (by rw [hdone]; rfl)).2] at hflow
    simpa [Consumer.inFlight] using hflow
  · rcases Daemon.contained_or_broken hbooks.daemon with ⟨-, hc⟩ | ⟨hne, -⟩
    · rw [hc.delivered, hc.returned]
    · exact absurd hf hne

end

/-- One writer for everything, and one for what a server has failed to answer. -/
def twoRoutes : TelemetryComposer Unit where
  globalFilters := []
  routes := [⟨0, FilterPipeline []⟩, ⟨1, Filters.StatusAtLeast 500 false⟩]

/-- A file with two lines is polled, they are dispatched, and a signal arrives. -/
def twoLines : List (Action Unit) :=
  [.produce (.create apiLog 7), .produce (.append apiLog [0x61, 0x0A, 0x62, 0x0A]),
    .poll, .collect {} (fun _ => false), .deliver, .next (), .next (), .signal, .cancel]

/-- The two writers are closed, one after the other. -/
def closeBoth : List (Action Unit) :=
  [.close .aclose, .consume 0 .get, .close .put, .consume 0 .top, .consume 0 .call,
    .consume 0 (.finish true), .consume 0 .get, .close .join, .close .aclose, .close .put,
    .consume 1 .get, .close .join]

/-- Where a run from the empty directory leads, with room for one item in each queue. -/
def runnerAfter (actions : List (Action Unit)) : Option (Runner Unit) :=
  runActions (step noRecords twoRoutes fun _ => { maxsize := 1 }) (fun _ _ => True)
    (start ∅ (fun _ => true) false) actions

theorem reachable_runnerAfter {actions : List (Action Unit)} (h : (runnerAfter actions).isSome) :
    Reachable (step noRecords twoRoutes fun _ => { maxsize := 1 }) (start ∅ (fun _ => true) false)
      ((runnerAfter actions).get h) :=
  Reach.of_runActions (Option.some_get h).symm

theorem isSome_runnerAfter : (runnerAfter (twoLines ++ closeBoth)).isSome := by decide +kernel
/-- The first writer hands over one of the lines and drops the other. -/
theorem routes_exactly_twoLines :
    let s := (runnerAfter (twoLines ++ closeBoth)).get isSome_runnerAfter
    ((s.writers 0).handed.flatten.map (·.message), (s.writers 0).dropped) = ([some "a"], 1) ∧
      (s.writers 0).handed.flatten = (s.writers 0).accepted := by
  have hclosed : ((runnerAfter (twoLines ++ closeBoth)).get isSome_runnerAfter).closed twoRoutes := by
    decide +kernel
  have hreach := reachable_runnerAfter isSome_runnerAfter
  refine ⟨by decide +kernel, ?_⟩
  generalize (runnerAfter (twoLines ++ closeBoth)).get isSome_runnerAfter = s at hclosed hreach ⊢
  exact (routes_exactly hreach ⟨0, by decide⟩).2.2.2.2.1 hclosed

end Runner

end ApiTemplate.Telemetry
