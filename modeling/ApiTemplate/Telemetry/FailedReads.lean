import ApiTemplate.Telemetry.TailRuns

/-!
# Reads that fail

`_Poller.collect` where `open` or `read` raises after `stat` has succeeded, and what runs on top of
it: the queue of `FileSystemLogReader.__anext__`, which awaits the pass in a thread of the executor,
and the loop of `_consume`. A pass that raises has moved the cursors of the files before the failing
one, and returns nothing.
-/

namespace ApiTemplate.Telemetry

open TxStore

/-! ## A pass that may raise -/

namespace Tail

variable (decode : ℚ → Bytes → Option TelemetryEvent)

/-- The file has something to read, and `open` or `read` raises for it. -/
def raises (fails : Path → Bool) (s : Tail) (path : Path) : Bool :=
  match s.files.lookup path with
  | none => false
  | some stat =>
    fails path && decide ((s.poller.cursorFor path stat).offset < stat.content.length)

/-- What the loop has done to a file when `open` or `read` raises for it. -/
def abort (call : Call) (s : Tail) (path : Path) : Tail :=
  match s.files.lookup path with
  | none => s
  | some stat =>
    { s.append path (call.late path) with
      poller := { s.poller with
        cursors := s.poller.cursors.insert path (s.poller.cursorFor path stat) } }

/-- The loop of `collect`, up to the first file that raises. The batches it has collected stand at
the end of the log. -/
def collectUntil (call : Call) (fails : Path → Bool) : List Path → Tail → Option Path × Tail
  | [], s => (none, s)
  | path :: paths, s =>
    if s.raises fails path then (some path, s.abort call path)
    else collectUntil call fails paths (s.visit decode call path)

variable {decode} {call : Call} {fails : Path → Bool}

/-- A pass in which nothing raises is a call of `collect`. -/
theorem collectUntil_eq_foldl {paths : List Path} {s s' : Tail}
    (h : collectUntil decode call fails paths s = (none, s')) :
    s' = paths.foldl (visit decode call) s := by
  induction paths generalizing s with
  | nil =>
    cases h
    rfl
  | cons path paths ih =>
    unfold collectUntil at h
    split at h
    · cases h
    · exact ih h

theorem log_visit (s : Tail) (path : Path) : s.log <+: (s.visit decode call path).log := by
  unfold visit
  split
  · exact List.prefix_rfl
  · exact List.prefix_append _ _

theorem log_abort (s : Tail) (path : Path) : (s.abort call path).log = s.log := by
  unfold abort append
  split
  · rfl
  · split <;> rfl

theorem log_collectUntil (decode : ℚ → Bytes → Option TelemetryEvent) (call : Call)
    (fails : Path → Bool) (paths : List Path) (s : Tail) :
    s.log <+: (collectUntil decode call fails paths s).2.log := by
  induction paths generalizing s with
  | nil => exact List.prefix_rfl
  | cons path paths ih =>
    unfold collectUntil
    split
    · exact (log_abort s path).symm ▸ List.prefix_rfl
    · exact (log_visit s path).trans (ih _)

/-- A producer leaves the reader and what it has returned. -/
theorem step_of_not_polls {s s' : Tail} {a : Telemetry.Action} (ha : a.polls = false)
    (hs : s.step decode a = some s') : s'.log = s.log ∧ s'.poller = s.poller := by
  cases a with
  | create q inode =>
    obtain ⟨-, -, rfl⟩ := Tail.step_create hs
    exact ⟨rfl, rfl⟩
  | append q chunk =>
    obtain rfl : s.append q chunk = s' := Option.some.inj hs
    rw [Tail.append_log, Tail.append_poller]
    exact ⟨rfl, rfl⟩
  | rotate q =>
    obtain ⟨file, -, rfl⟩ := Tail.step_rotate hs
    exact ⟨rfl, rfl⟩
  | collect call => cases ha

end Tail

/-! ## The daemon -/

/-- How the task of `_consume` stands. -/
inductive ConsumeTask
  | running
  /-- closed or cancelled -/
  | ended
  /-- an exception has left the loop -/
  | raised
  deriving DecidableEq

/-- Where the `await` of `run_in_executor` in `__anext__` stands. -/
inductive Polling
  /-- nothing is awaited -/
  | idle
  /-- the executor has `collect` before it, or is in it -/
  | called
  /-- it has returned, and the consumer has not been woken yet -/
  | returned (events : List TelemetryEvent)
  /-- it has raised, and the consumer has not been woken yet -/
  | raised

instance : ∀ polling : Polling, Decidable (polling = .idle)
  | .idle => isTrue rfl
  | .called => isFalse (by simp)
  | .returned _ => isFalse (by simp)
  | .raised => isFalse (by simp)

/-- The events of a pass that wait for the consumer. -/
def Polling.events : Polling → List TelemetryEvent
  | returned events => events
  | idle | called | raised => []

/-- A file whose `open` or `read` raised, with its cursors before and after the pass. -/
structure FailedRead where
  path : Path
  before : Option FileCursor
  after : Option FileCursor

/-- The reader, its queue and the consumer. The log of `tail` holds the batches that `collect` has
returned, `read` those of every file it has read, and `dispatched` the events that reached
`composer.dispatch`. -/
structure Daemon where
  tail : Tail
  queue : List TelemetryEvent := []
  closed : Bool := false
  task : ConsumeTask := .running
  polling : Polling := .idle
  dispatched : List TelemetryEvent := []
  read : List Batch := []
  failed : List FailedRead := []

namespace Daemon

inductive Action
  /-- a producer writes, creates or renames a file -/
  | produce (a : Telemetry.Action)
  /-- `__anext__` takes an event off the queue, and it is dispatched -/
  | next
  /-- `__anext__` finds its queue empty and hands `collect` to the executor -/
  | poll
  /-- the executor runs `collect`; `fails` are the files whose `open` or `read` would raise -/
  | collect (call : Call) (fails : Path → Bool)
  /-- the consumer goes on with what `collect` has returned or raised -/
  | deliver
  /-- `reader.aclose()` -/
  | aclose
  /-- `__anext__` finds the reader closed -/
  | stop
  /-- `consume.cancel()` -/
  | cancel

section

variable (decode : ℚ → Bytes → Option TelemetryEvent)

/-- One call of `collect`. Its events wait for the consumer; where it raises, there are none. -/
def collect (call : Call) (fails : Path → Bool) (d : Daemon) : Daemon :=
  let result := Tail.collectUntil decode call fails (d.tail.poller.glob d.tail.files) d.tail
  let batches := result.2.log.drop d.tail.log.length
  match result.1 with
  | none =>
    { d with
      tail := result.2
      polling := .returned (batches.flatMap Batch.events)
      read := d.read ++ batches }
  | some path =>
    { d with
      tail := { result.2 with log := d.tail.log }
      polling := .raised
      read := d.read ++ batches
      failed := d.failed ++ [{ path, before := d.tail.poller.cursors.lookup path,
                               after := result.2.poller.cursors.lookup path }] }

/-- The thread of the executor does not stop when the task that awaits it is cancelled: it moves the
cursors, and nobody takes its events. -/
def step (d : Daemon) : Action → Option Daemon
  | .produce a =>
    if a.polls then none else (d.tail.step decode a).map fun tail => { d with tail }
  | .next =>
    match d.queue with
    | [] => none
    | event :: queue =>
      if d.task = .running ∧ d.closed = false ∧ d.polling = .idle then
        some { d with queue, dispatched := d.dispatched ++ [event] }
      else none
  | .poll =>
    if d.task = .running ∧ d.closed = false ∧ d.polling = .idle ∧ d.queue = [] then
      some { d with polling := .called }
    else none
  | .collect call fails =>
    match d.polling with
    | .called => some (d.collect decode call fails)
    | .idle | .returned _ | .raised => none
  | .deliver =>
    match d.polling with
    | .returned events =>
      if d.task = .running then some { d with queue := d.queue ++ events, polling := .idle }
      else none
    | .raised =>
      if d.task = .running then some { d with task := .raised, polling := .idle } else none
    | .idle | .called => none
  | .aclose => some { d with closed := true }
  | .stop =>
    if d.task = .running ∧ d.closed = true ∧ d.polling = .idle then
      some { d with task := .ended }
    else none
  | .cancel => if d.task = .running then some { d with task := .ended } else some d

end

/-- The daemon at its start. -/
def start (files : FileSystem) (pattern : Path → Bool) (fromEnd : Bool) : Daemon where
  tail := .start files pattern fromEnd

/-! ## What a failing read must not do -/

/-- **Failures are contained**: every batch that was read has been returned, once and in order; every
event that was returned is dispatched, queued or about to be; the cursor of a file that failed is as
before; and no exception has reached the iteration or left the consumer. -/
structure Contained (d : Daemon) : Prop where
  returned : d.tail.log = d.read
  delivered : d.dispatched ++ d.queue ++ d.polling.events = d.read.flatMap Batch.events
  cursors : ∀ f ∈ d.failed, f.after = f.before
  goesOn : d.task ≠ .raised ∧ d.polling ≠ .raised

/-- `collect` has raised, and its exception is on the way or has left the loop. -/
def Broken (d : Daemon) : Prop :=
  d.polling = .raised ∨ d.task = .raised ∧ d.polling = .idle

section

variable {decode : ℚ → Bytes → Option TelemetryEvent} {d d' : Daemon}

/-- A call of `collect` returns what it has read, or it raises and returns nothing. -/
theorem collect_cases (decode : ℚ → Bytes → Option TelemetryEvent) (d : Daemon) (call : Call)
    (fails : Path → Bool) :
    (∃ batches, (d.tail.collect decode call).log = d.tail.log ++ batches ∧
      d.collect decode call fails =
        { d with
          tail := d.tail.collect decode call
          polling := .returned (batches.flatMap Batch.events)
          read := d.read ++ batches }) ∨
    ∃ tail read f, d.collect decode call fails =
      { d with tail, polling := .raised, read, failed := d.failed ++ [f] } := by
  unfold collect
  rcases h : Tail.collectUntil decode call fails (d.tail.poller.glob d.tail.files) d.tail with
    ⟨_ | path, tail⟩
  · obtain rfl : tail = d.tail.collect decode call := Tail.collectUntil_eq_foldl h
    have hlog := Tail.log_collectUntil decode call fails (d.tail.poller.glob d.tail.files) d.tail
    rw [h] at hlog
    exact .inl ⟨_, (List.prefix_iff_eq_append.mp hlog).symm, rfl⟩
  · exact .inr ⟨_, _, _, rfl⟩

/-- What a step can do. -/
theorem step_cases {a : Action} (hs : d.step decode a = some d') :
    (∃ b tail, a = .produce b ∧ b.polls = false ∧ d.tail.step decode b = some tail ∧
      d' = { d with tail }) ∨
    (∃ event queue, a = .next ∧ d.queue = event :: queue ∧ d.task = .running ∧ d.closed = false ∧
      d.polling = .idle ∧ d' = { d with queue, dispatched := d.dispatched ++ [event] }) ∨
    (a = .poll ∧ d.task = .running ∧ d.polling = .idle ∧ d' = { d with polling := .called }) ∨
    (∃ call fails, a = .collect call fails ∧ d.polling = .called ∧
      d' = d.collect decode call fails) ∨
    (∃ events, a = .deliver ∧ d.task = .running ∧ d.polling = .returned events ∧
      d' = { d with queue := d.queue ++ events, polling := .idle }) ∨
    (a = .deliver ∧ d.task = .running ∧ d.polling = .raised ∧
      d' = { d with task := .raised, polling := .idle }) ∨
    (a = .aclose ∧ d' = { d with closed := true }) ∨
    ((a = .stop ∧ d.polling = .idle ∨ a = .cancel) ∧ d.task = .running ∧
      d' = { d with task := .ended }) ∨
    (a = .cancel ∧ d.task ≠ .running ∧ d' = d) := by
  cases a with
  | produce b =>
    refine .inl ?_
    by_cases hb : b.polls = true
    · simp [step, hb] at hs
    · simp only [step, hb] at hs
      obtain ⟨tail, htail, rfl⟩ := Option.map_eq_some_iff.mp hs
      exact ⟨b, tail, rfl, by simpa using hb, htail, rfl⟩
  | next =>
    refine .inr (.inl ?_)
    simp only [step] at hs
    split at hs
    · cases hs
    · rename_i event queue hq
      obtain ⟨⟨hrun, hopen, hidle⟩, hs⟩ := Option.ite_none_right_eq_some.mp hs
      exact ⟨event, queue, rfl, hq, hrun, hopen, hidle, (Option.some.inj hs).symm⟩
  | poll =>
    refine .inr (.inr (.inl ?_))
    obtain ⟨⟨hrun, -, hidle, -⟩, hs⟩ := Option.ite_none_right_eq_some.mp hs
    exact ⟨rfl, hrun, hidle, (Option.some.inj hs).symm⟩
  | collect call fails =>
    refine .inr (.inr (.inr (.inl ?_)))
    simp only [step] at hs
    split at hs
    · rename_i hcalled
      exact ⟨call, fails, rfl, hcalled, (Option.some.inj hs).symm⟩
    · cases hs
    · cases hs
    · cases hs
  | deliver =>
    simp only [step] at hs
    split at hs
    · rename_i events hreturned
      obtain ⟨hrun, hs⟩ := Option.ite_none_right_eq_some.mp hs
      exact .inr (.inr (.inr (.inr (.inl
        ⟨events, rfl, hrun, hreturned, (Option.some.inj hs).symm⟩))))
    · rename_i hraised
      obtain ⟨hrun, hs⟩ := Option.ite_none_right_eq_some.mp hs
      exact .inr (.inr (.inr (.inr (.inr (.inl
        ⟨rfl, hrun, hraised, (Option.some.inj hs).symm⟩)))))
    · cases hs
    · cases hs
  | aclose =>
    exact .inr (.inr (.inr (.inr (.inr (.inr (.inl ⟨rfl, (Option.some.inj hs).symm⟩))))))
  | stop =>
    refine .inr (.inr (.inr (.inr (.inr (.inr (.inr (.inl ?_)))))))
    obtain ⟨⟨hrun, -, hidle⟩, hs⟩ := Option.ite_none_right_eq_some.mp hs
    exact ⟨.inl ⟨rfl, hidle⟩, hrun, (Option.some.inj hs).symm⟩
  | cancel =>
    refine .inr (.inr (.inr (.inr (.inr (.inr (.inr ?_))))))
    simp only [step] at hs
    split at hs
    · rename_i hrun
      exact .inl ⟨.inr rfl, hrun, (Option.some.inj hs).symm⟩
    · rename_i hrun
      exact .inr ⟨rfl, hrun, (Option.some.inj hs).symm⟩

/-- **A failure is final.** Once `collect` has raised, no step reads, queues or dispatches anything,
whether or not the exception reaches the loop. -/
theorem Broken.step {a : Action} (h : d.Broken) (hs : d.step decode a = some d') :
    d'.Broken ∧ d'.tail.poller = d.tail.poller ∧ d'.queue = d.queue ∧
      d'.dispatched = d.dispatched ∧ d'.failed = d.failed := by
  have hidle : d.polling = .idle → d.task ≠ .running := by
    rintro hidle hrun
    rcases h with hraised | ⟨hraised, -⟩
    · cases hidle.symm.trans hraised
    · cases hrun.symm.trans hraised
  have hother : ∀ {polling}, d.polling = polling → polling = .idle ∨ polling = .raised := by
    rintro _ rfl
    exact h.elim .inr fun h => .inl h.2
  obtain ⟨b, tail, -, hb, htail, rfl⟩ | ⟨event, queue, -, -, hrun, -, hpolling, -⟩ |
    ⟨-, hrun, hpolling, -⟩ | ⟨call, fails, -, hcalled, -⟩ | ⟨events, -, -, hreturned, -⟩ |
    ⟨-, hrun, hraised, rfl⟩ | ⟨-, rfl⟩ | ⟨-, hrun, rfl⟩ | ⟨-, -, rfl⟩ := step_cases hs
  · exact ⟨h, (Tail.step_of_not_polls hb htail).2, rfl, rfl, rfl⟩
  · exact absurd hrun (hidle hpolling)
  · exact absurd hrun (hidle hpolling)
  · rcases hother hcalled with hfalse | hfalse <;> cases hfalse
  · rcases hother hreturned with hfalse | hfalse <;> cases hfalse
  · exact ⟨.inr ⟨rfl, rfl⟩, rfl, rfl, rfl, rfl⟩
  · exact ⟨h, rfl, rfl, rfl, rfl⟩
  · exact ⟨.inl (h.resolve_right fun hraised => hidle hraised.2 hrun), rfl, rfl, rfl, rfl⟩
  · exact ⟨h, rfl, rfl, rfl, rfl⟩

/-- As long as nothing has failed, every step keeps failures contained. -/
theorem Contained.step {a : Action} (h : Contained d) (hs : d.step decode a = some d')
    (hf : d'.failed = []) : Contained d' := by
  have hdelivered := h.delivered
  obtain ⟨b, tail, -, hb, htail, rfl⟩ | ⟨event, queue, -, hq, -, -, -, rfl⟩ | ⟨-, -, hidle, rfl⟩ |
    ⟨call, fails, -, hcalled, rfl⟩ | ⟨events, -, hrun, hreturned, rfl⟩ | ⟨-, -, hraised, -⟩ |
    ⟨-, rfl⟩ | ⟨-, -, rfl⟩ | ⟨-, -, rfl⟩ := step_cases hs
  · exact { h with returned := (Tail.step_of_not_polls hb htail).1.trans h.returned }
  · refine { h with delivered := ?_ }
    rw [← hdelivered, hq]
    simp
  · rw [hidle] at hdelivered
    exact { h with delivered := hdelivered, goesOn := ⟨h.goesOn.1, by simp⟩ }
  · rcases collect_cases decode d call fails with ⟨batches, hlog, heq⟩ | ⟨tail, read, f, heq⟩
    · rw [hcalled] at hdelivered
      rw [heq] at hf ⊢
      refine ⟨?_, ?_, ?_, h.goesOn.1, by simp⟩
      · exact hlog.trans (by rw [h.returned])
      · show d.dispatched ++ d.queue ++ batches.flatMap Batch.events =
          (d.read ++ batches).flatMap Batch.events
        rw [List.flatMap_append, ← hdelivered]
        simp [Polling.events]
      · rw [hf]
        simp
    · rw [heq] at hf
      simp at hf
  · rw [hreturned] at hdelivered
    refine { h with delivered := ?_, goesOn := ⟨h.goesOn.1, by simp⟩ }
    rw [← hdelivered]
    simp [Polling.events]
  · exact absurd hraised h.goesOn.2
  · exact { h with }
  · exact { h with goesOn := ⟨by simp, h.goesOn.2⟩ }
  · exact h

/-- In the step in which a file fails, `collect` raises. -/
theorem broken_of_failed {a : Action} (h : d.failed = []) (hs : d.step decode a = some d')
    (hf : d'.failed ≠ []) : d'.Broken := by
  obtain ⟨b, tail, -, -, -, rfl⟩ | ⟨event, queue, -, -, -, -, -, rfl⟩ | ⟨-, -, -, rfl⟩ |
    ⟨call, fails, -, -, rfl⟩ | ⟨events, -, -, -, rfl⟩ | ⟨-, -, -, rfl⟩ | ⟨-, rfl⟩ | ⟨-, -, rfl⟩ |
    ⟨-, -, rfl⟩ := step_cases hs
  case inr.inr.inr.inl =>
    rcases collect_cases decode d call fails with ⟨batches, -, heq⟩ | ⟨tail, read, f, heq⟩
    · rw [heq] at hf
      exact absurd h hf
    · rw [heq]
      exact .inl rfl
  all_goals exact absurd h hf

end

/-! ## Runs -/

/-- In every state reached, either nothing has failed or the reader is broken. -/
theorem contained_or_broken {decode : ℚ → Bytes → Option TelemetryEvent} {files : FileSystem}
    {pattern : Path → Bool} {fromEnd : Bool} {d : Daemon}
    (h : Reachable (step decode) (start files pattern fromEnd) d) :
    d.failed = [] ∧ Contained d ∨ d.failed ≠ [] ∧ d.Broken := by
  refine h.invariant (P := fun d => d.failed = [] ∧ Contained d ∨ d.failed ≠ [] ∧ d.Broken) ?_ ?_
  · exact .inl ⟨rfl, rfl, rfl, by simp [start], by simp [start]⟩
  · rintro d₁ a d₂ (⟨hf, hc⟩ | ⟨hf, hbroken⟩) - hs
    · by_cases hf' : d₂.failed = []
      · exact .inl ⟨hf', hc.step hs hf'⟩
      · exact .inr ⟨hf', broken_of_failed hf hs hf'⟩
    · obtain ⟨hbroken', -, -, -, hsame⟩ := hbroken.step hs
      exact .inr ⟨hsame ▸ hf, hbroken'⟩

/-- **Failing reads.** In a run of the daemon, failures are contained exactly if no `open` or `read`
has failed. -/
theorem contained_iff (decode : ℚ → Bytes → Option TelemetryEvent) (files : FileSystem)
    (pattern : Path → Bool) (fromEnd : Bool) (d : Daemon)
    (h : Reachable (step decode) (start files pattern fromEnd) d) :
    Contained d ↔ d.failed = [] := by
  rcases contained_or_broken h with ⟨hf, hc⟩ | ⟨hf, hbroken⟩
  · simp [hf, hc]
  · simp only [hf, iff_false]
    intro hc
    rcases hbroken with hraised | ⟨hraised, -⟩
    · exact hc.goesOn.2 hraised
    · exact hc.goesOn.1 hraised

/-- `logs/worker/worker.log.json`, which a pass reads after the log of the API -/
def workerLog : Path := ⟨["worker", "worker.log.json"]⟩

/-- A line reaches either log, and the second log cannot be opened. -/
def unreadableLog (fails : Path → Bool) : List Action :=
  [.produce (.create apiLog 7), .produce (.create workerLog 8),
    .produce (.append apiLog [0x61, 0x0A]), .produce (.append workerLog [0x62, 0x0A]),
    .poll, .collect {} fails, .deliver]

/-- What the run leaves. -/
def unreadableLogEnd (fails : Path → Bool) (h : (runActions (step noRecords) (fun _ _ => True)
    (start ∅ (fun _ => true) false) (unreadableLog fails)).isSome) : Daemon :=
  (runActions (step noRecords) (fun _ _ => True) (start ∅ (fun _ => true) false)
    (unreadableLog fails)).get h

theorem contained_iff_readable :
    Contained (unreadableLogEnd (fun _ => false) (by decide)) ↔
      (unreadableLogEnd (fun _ => false) (by decide)).failed = [] :=
  contained_iff noRecords ∅ (fun _ => true) false _ (Reach.of_runActions (Option.some_get _).symm)

/-- The cursor of the first log has moved past its line, which is returned nowhere, and the loop has
ended. -/
theorem not_contained_unreadableLog :
    ¬ ∀ (decode : ℚ → Bytes → Option TelemetryEvent) (files : FileSystem) (pattern : Path → Bool)
      (fromEnd : Bool) (d : Daemon), Reachable (step decode) (start files pattern fromEnd) d →
      Contained d := by
  intro h
  have hc := h noRecords ∅ (fun _ => true) false
    (unreadableLogEnd (fun path => path = workerLog) (by decide))
    (Reach.of_runActions (Option.some_get _).symm)
  have hraised : (unreadableLogEnd (fun path => path = workerLog) (by decide)).task = .raised := by
    decide
  exact hc.goesOn.1 hraised

end Daemon

end ApiTemplate.Telemetry
