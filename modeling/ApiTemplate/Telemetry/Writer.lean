import ApiTemplate.TxStore.Transition
import Mathlib.Data.List.Basic
import Mathlib.Data.Int.Order.Basic

/-!
# The queue of a writer

`AbstractWriter`: a bounded queue between `submit` and the consumer task of `_run`, closed by a
sentinel in the same queue. Every `get` and `put` is a step of its own, so a submit, the closing
task and a timeout may come between any two of them. The events are arbitrary.
-/

namespace ApiTemplate.Telemetry

open TxStore

/-- What stands in the queue. -/
inductive Item (α : Type)
  | event (e : α)
  | sentinel
  deriving DecidableEq

/-- Where the consumer task stands in `_run`. -/
inductive Consumer (α : Type)
  /-- in `wait_for` of the first item -/
  | waiting
  /-- in the loop that tops the batch up -/
  | filling (batch : List α)
  /-- before the call of `_handle_batch` -/
  | ready (batch : List α) (stopping : Bool)
  /-- inside `_handle_batch` -/
  | handling (stopping : Bool)
  | done
  deriving DecidableEq

namespace Consumer

variable {α : Type}

/-- The events the consumer has taken and not yet handed over. -/
def inFlight : Consumer α → List α
  | filling batch => batch
  | ready batch _ => batch
  | _ => []

/-- The consumer has met the sentinel. -/
def stopped : Consumer α → Bool
  | ready _ stopping => stopping
  | handling stopping => stopping
  | done => true
  | _ => false

/-- The consumer holds a batch. -/
def holds : Consumer α → Bool
  | filling _ => true
  | ready _ _ => true
  | _ => false

end Consumer

/-- Where the task that closes the writer stands in `aclose`. -/
inductive Closer
  | idle
  /-- in `put` of the sentinel -/
  | putting
  /-- waiting for the consumer -/
  | joining
  | closed
  deriving DecidableEq

/-- The sentinel has entered the queue. -/
def Closer.entered : Closer → Bool
  | idle => false
  | putting => false
  | joining => true
  | closed => true

/-- The arguments of `__init__` that matter here. -/
structure WriterConfig where
  maxsize : ℤ := 10000
  batchSize : ℤ := 1

/-- `_batch_size` -/
def WriterConfig.size (cfg : WriterConfig) : ℤ := max 1 cfg.batchSize

/-- A writer whose consumer has been started. `submitted` lists the events given to `submit` and
whether they were accepted, and `handed` the batches `_handle_batch` was called with. -/
structure Writer (α : Type) where
  queue : List (Item α) := []
  dropped : ℕ := 0
  consumer : Consumer α := .waiting
  closer : Closer := .idle
  submitted : List (α × Bool) := []
  handed : List (List α) := []
  deriving DecidableEq

namespace Writer

variable {α : Type}

/-- `asyncio.Queue.full` -/
def full (cfg : WriterConfig) (s : Writer α) : Bool :=
  if cfg.maxsize ≤ 0 then false else decide ((s.queue.length : ℤ) ≥ cfg.maxsize)

inductive Action (α : Type)
  | submit (e : α)
  /-- the first `get` of a batch returns -/
  | get
  /-- the first `get` of a batch times out -/
  | timeout
  /-- one iteration of the loop that tops the batch up -/
  | top
  /-- `_handle_batch` is called -/
  | call
  /-- `_handle_batch` returns or raises -/
  | finish (raised : Bool)
  /-- `aclose` is called -/
  | aclose
  /-- the `put` of the sentinel returns -/
  | put
  /-- the wait for the consumer ends -/
  | join

def submit (cfg : WriterConfig) (s : Writer α) (e : α) : Writer α :=
  if s.full cfg then
    { s with dropped := s.dropped + 1, submitted := s.submitted ++ [(e, false)] }
  else { s with queue := s.queue ++ [.event e], submitted := s.submitted ++ [(e, true)] }

/-- One iteration of the loop of `_run` that tops `batch` up. -/
def fill (cfg : WriterConfig) (s : Writer α) (batch : List α) : Writer α :=
  if (batch.length : ℤ) < cfg.size then
    match s.queue with
    | [] => { s with consumer := .ready batch false }
    | .sentinel :: queue => { s with queue, consumer := .ready batch true }
    | .event e :: queue => { s with queue, consumer := .filling (batch ++ [e]) }
  else { s with consumer := .ready batch false }

def step (cfg : WriterConfig) (s : Writer α) : Action α → Option (Writer α)
  | .submit e => some (s.submit cfg e)
  | .get =>
    match s.consumer, s.queue with
    | .waiting, .sentinel :: queue => some { s with queue, consumer := .done }
    | .waiting, .event e :: queue => some { s with queue, consumer := .filling [e] }
    | _, _ => none
  | .timeout =>
    match s.consumer with
    | .waiting => some s
    | _ => none
  | .top =>
    match s.consumer with
    | .filling batch => some (s.fill cfg batch)
    | _ => none
  | .call =>
    match s.consumer with
    | .ready batch stopping =>
      some { s with consumer := .handling stopping, handed := s.handed ++ [batch] }
    | _ => none
  | .finish _ =>
    -- an exception of the batch is logged and the loop goes on
    match s.consumer with
    | .handling stopping => some { s with consumer := if stopping then .done else .waiting }
    | _ => none
  | .aclose =>
    match s.closer with
    | .idle => some { s with closer := .putting }
    | _ => none
  | .put =>
    match s.closer with
    | .putting =>
      if s.full cfg then none
      else some { s with queue := s.queue ++ [.sentinel], closer := .joining }
    | _ => none
  | .join =>
    match s.closer, s.consumer with
    | .joining, .done => some { s with closer := .closed }
    | _, _ => none

/-- No event is submitted once the sentinel has entered the queue. -/
def NoLateSubmit (s : Writer α) : Action α → Prop
  | .submit _ => s.closer.entered = false
  | _ => True

/-- The events `submit` has accepted, in order. -/
def accepted (s : Writer α) : List α := (s.submitted.filter Prod.snd).map Prod.fst

/-- How many submits were refused. -/
def refused (s : Writer α) : ℕ := (s.submitted.filter fun x => !x.2).length

/-! ## The books of a writer -/

/-- The sentinel, while it is in the queue. -/
def marker (entered stopped : Bool) : List (Item α) :=
  if entered && !stopped then [.sentinel] else []

@[simp] theorem marker_false (stopped : Bool) : (marker false stopped : List (Item α)) = [] := rfl

@[simp] theorem marker_stopped (entered : Bool) : (marker entered true : List (Item α)) = [] := by
  cases entered <;> rfl

/-- A batch `_handle_batch` may be called with. -/
def FitBatch (cfg : WriterConfig) (batch : List α) : Prop :=
  batch ≠ [] ∧ (batch.length : ℤ) ≤ cfg.size

/-- **The invariant of the queue**, with the events that are still queued. What was handed over,
what the consumer holds and what is queued are the accepted events in order, and behind the
sentinel there is nothing. -/
structure Accounts (cfg : WriterConfig) (s : Writer α) (queued : List α) : Prop where
  queue : s.queue = queued.map .event ++ marker s.closer.entered s.consumer.stopped
  flow : s.handed.flatten ++ s.consumer.inFlight ++ queued = s.accepted
  counted : s.dropped = s.refused
  handed : ∀ batch ∈ s.handed, FitBatch cfg batch
  held : s.consumer.holds → FitBatch cfg s.consumer.inFlight
  stopped : s.consumer.stopped → s.closer.entered ∧ queued = []
  closed : s.closer = .closed → s.consumer = .done

theorem accepted_length_add_refused (s : Writer α) :
    s.accepted.length + s.refused = s.submitted.length := by
  unfold accepted refused
  rw [List.length_map]
  induction s.submitted with
  | nil => rfl
  | cons x xs ih =>
    rcases x with ⟨e, _ | _⟩
    · simp
      omega
    · simp
      omega

namespace Accounts

variable {cfg : WriterConfig} {s : Writer α} {queued : List α}

theorem start (cfg : WriterConfig) : Accounts cfg ({} : Writer α) [] where
  queue := rfl
  flow := rfl
  counted := rfl
  handed := by simp
  held := by simp [Consumer.holds]
  stopped := by simp [Consumer.stopped]
  closed := by simp

theorem submit (h : Accounts cfg s queued) (e : α) (hopen : s.closer.entered = false) :
    ∃ queued', Accounts cfg (s.submit cfg e) queued' := by
  unfold Writer.submit
  by_cases hfull : s.full cfg
  · rw [if_pos hfull]
    refine ⟨queued, { h with queue := h.queue, flow := ?_, counted := ?_ }⟩
    · simpa [accepted] using h.flow
    · simpa [refused] using h.counted
  · rw [if_neg hfull]
    have hstopped : s.consumer.stopped = false := by
      by_contra hs
      have := (h.stopped (by simpa using hs)).1
      rw [hopen] at this
      cases this
    refine ⟨queued ++ [e], { h with queue := ?_, flow := ?_, counted := ?_, stopped := ?_ }⟩
    · have hq := h.queue
      rw [hopen] at hq
      simp [hq, hopen]
    · have := h.flow
      simp only [accepted, List.filter_append, List.map_append] at this ⊢
      simp [← this]
    · simpa [refused] using h.counted
    · intro hs
      rw [hstopped] at hs
      cases hs

theorem not_closed (h : Accounts cfg s queued) (hc : s.consumer ≠ .done) : s.closer ≠ .closed :=
  fun hcl => hc (h.closed hcl)

/-- The item at the head of the queue is the oldest queued event, or the sentinel when no event is
queued. -/
theorem head (h : Accounts cfg s queued) (hs : s.consumer.stopped = false) {x : Item α}
    {queue : List (Item α)} (hq : s.queue = x :: queue) :
    (∃ e rest, x = .event e ∧ queued = e :: rest ∧
        queue = rest.map .event ++ marker s.closer.entered false) ∨
      (x = .sentinel ∧ queued = [] ∧ queue = [] ∧ s.closer.entered = true) := by
  have hall := h.queue
  rw [hq, hs] at hall
  rcases queued with - | ⟨e, rest⟩
  · by_cases hin : s.closer.entered = true
    · simp [marker, hin] at hall
      exact .inr ⟨hall.1, rfl, hall.2, hin⟩
    · simp [marker, hin] at hall
  · simp at hall
    exact .inl ⟨e, rest, hall.1, rfl, hall.2⟩

theorem get (h : Accounts cfg s queued) {s' : Writer α} (hs : step cfg s .get = some s') :
    ∃ queued', Accounts cfg s' queued' := by
  have hc : s.consumer = .waiting := by
    simp only [step] at hs
    split at hs
    · assumption
    · assumption
    · cases hs
  have hrun : s.consumer.stopped = false := by rw [hc]; rfl
  have hnc : s.closer ≠ .closed := h.not_closed (by simp [hc])
  have hflow := h.flow
  rw [hc] at hflow
  rcases hq : s.queue with - | ⟨x, queue⟩
  · simp [step, hc, hq] at hs
  rcases h.head hrun hq with ⟨e, rest, rfl, rfl, hrest⟩ | ⟨rfl, rfl, rfl, hin⟩
  · simp only [step, hc, hq, Option.some.injEq] at hs
    subst hs
    refine ⟨rest, { h with queue := hrest, flow := ?_, held := ?_, stopped := ?_, closed := ?_ }⟩
    · show s.handed.flatten ++ [e] ++ rest = s.accepted
      simpa [Consumer.inFlight] using hflow
    · intro _
      exact ⟨List.cons_ne_nil _ _, le_max_left _ _⟩
    · intro hst
      cases hst
    · intro hcl
      exact absurd hcl hnc
  · simp only [step, hc, hq, Option.some.injEq] at hs
    subst hs
    refine ⟨[], { h with queue := ?_, flow := hflow, held := ?_, stopped := ?_, closed := ?_ }⟩
    · exact (marker_stopped _).symm
    · intro hh
      cases hh
    · intro _
      exact ⟨hin, rfl⟩
    · intro _
      rfl

theorem fill (h : Accounts cfg s queued) {batch : List α} (hc : s.consumer = .filling batch) :
    ∃ queued', Accounts cfg (s.fill cfg batch) queued' := by
  have hnc : s.closer ≠ .closed := h.not_closed (by simp [hc])
  have hrun : s.consumer.stopped = false := by rw [hc]; rfl
  have hheld : FitBatch cfg batch := by
    have := h.held (by rw [hc]; rfl)
    rwa [hc] at this
  have hflow := h.flow
  rw [hc] at hflow
  -- the batch is handed over as it is, and nothing is taken
  have hready : Accounts cfg { s with consumer := .ready batch false } queued := by
    have hqueue := h.queue
    rw [hrun] at hqueue
    refine { h with queue := hqueue, flow := hflow, held := fun _ => hheld, stopped := ?_,
                    closed := ?_ }
    · intro hst
      cases hst
    · intro hcl
      exact absurd hcl hnc
  unfold Writer.fill
  by_cases hroom : (batch.length : ℤ) < cfg.size
  · rw [if_pos hroom]
    split
    · exact ⟨queued, hready⟩
    · rename_i queue hq
      rcases h.head hrun hq with ⟨e, rest, hx, -, -⟩ | ⟨-, rfl, rfl, hin⟩
      · cases hx
      refine ⟨[], { h with queue := ?_, flow := hflow, held := fun _ => hheld, stopped := ?_,
                           closed := ?_ }⟩
      · exact (marker_stopped _).symm
      · intro _
        exact ⟨hin, rfl⟩
      · intro hcl
        exact absurd hcl hnc
    · rename_i e queue hq
      rcases h.head hrun hq with ⟨e', rest, hx, rfl, hrest⟩ | ⟨hx, -, -, -⟩
      · cases hx
        refine ⟨rest, { h with queue := hrest, flow := ?_, held := ?_, stopped := ?_,
                               closed := ?_ }⟩
        · show s.handed.flatten ++ (batch ++ [e]) ++ rest = s.accepted
          simpa [Consumer.inFlight] using hflow
        · intro _
          refine ⟨by simp [Consumer.inFlight], ?_⟩
          show ((batch ++ [e]).length : ℤ) ≤ cfg.size
          rw [List.length_append, List.length_singleton]
          push_cast
          omega
        · intro hst
          cases hst
        · intro hcl
          exact absurd hcl hnc
      · cases hx
  · rw [if_neg hroom]
    exact ⟨queued, hready⟩

theorem call (h : Accounts cfg s queued) {batch : List α} {stopping : Bool}
    (hc : s.consumer = .ready batch stopping) :
    Accounts cfg { s with consumer := .handling stopping, handed := s.handed ++ [batch] } queued := by
  have hqueue := h.queue
  have hflow := h.flow
  have hstopped := h.stopped
  rw [hc] at hqueue hflow hstopped
  refine { h with queue := hqueue, flow := ?_, handed := ?_, held := ?_, stopped := hstopped,
                  closed := ?_ }
  · show (s.handed ++ [batch]).flatten ++ [] ++ queued = s.accepted
    simpa [Consumer.inFlight] using hflow
  · intro b hb
    rcases List.mem_append.mp hb with hb | hb
    · exact h.handed b hb
    · have := h.held (by rw [hc]; rfl)
      rw [hc] at this
      rwa [List.mem_singleton.mp hb]
  · intro hh
    cases hh
  · intro hcl
    exact absurd hcl (h.not_closed (by simp [hc]))

theorem finish (h : Accounts cfg s queued) {stopping : Bool}
    (hc : s.consumer = .handling stopping) :
    Accounts cfg { s with consumer := if stopping then .done else .waiting } queued := by
  have hflow := h.flow
  have hstopped := h.stopped
  have hqueue := h.queue
  have hnc : s.closer ≠ .closed := h.not_closed (by simp [hc])
  rw [hc] at hqueue hflow hstopped
  cases stopping with
  | false =>
    refine { h with queue := hqueue, flow := hflow, held := ?_, stopped := ?_, closed := ?_ }
    · intro hh
      cases hh
    · intro hst
      cases hst
    · intro hcl
      exact absurd hcl hnc
  | true =>
    refine { h with queue := hqueue, flow := hflow, held := ?_, stopped := ?_, closed := ?_ }
    · intro hh
      cases hh
    · intro _
      exact hstopped rfl
    · intro _
      rfl

theorem put (h : Accounts cfg s queued) (hc : s.closer = .putting) :
    Accounts cfg { s with queue := s.queue ++ [.sentinel], closer := .joining } queued := by
  have hrun : s.consumer.stopped = false := by
    by_contra hs
    have := (h.stopped (by simpa using hs)).1
    rw [hc] at this
    cases this
  refine { h with queue := ?_, stopped := ?_, closed := ?_ }
  · have hqueue := h.queue
    rw [hc, hrun] at hqueue
    simp [hqueue, marker, Closer.entered, hrun]
  · intro hst
    rw [hrun] at hst
    cases hst
  · intro hcl
    cases hcl

/-- The closing task moves on without touching the queue. -/
theorem closer (h : Accounts cfg s queued) {c : Closer} (hin : c.entered = s.closer.entered)
    (hdone : c = .closed → s.consumer = .done) : Accounts cfg { s with closer := c } queued := by
  refine { h with queue := ?_, stopped := ?_, closed := hdone }
  · show s.queue = queued.map .event ++ marker c.entered s.consumer.stopped
    rw [hin]
    exact h.queue
  · intro hst
    exact ⟨hin.trans (h.stopped hst).1, (h.stopped hst).2⟩

theorem step (h : Accounts cfg s queued) {a : Action α} {s' : Writer α} (hok : NoLateSubmit s a)
    (hs : step cfg s a = some s') : ∃ queued', Accounts cfg s' queued' := by
  cases a with
  | submit e =>
    cases hs
    exact h.submit e hok
  | get => exact h.get hs
  | timeout =>
    simp only [Writer.step] at hs
    split at hs
    · cases hs
      exact ⟨queued, h⟩
    · cases hs
  | top =>
    simp only [Writer.step] at hs
    split at hs
    · rename_i batch hc
      cases hs
      exact h.fill hc
    · cases hs
  | call =>
    simp only [Writer.step] at hs
    split at hs
    · rename_i batch stopping hc
      cases hs
      exact ⟨queued, h.call hc⟩
    · cases hs
  | finish raised =>
    simp only [Writer.step] at hs
    split at hs
    · rename_i stopping hc
      cases hs
      exact ⟨queued, h.finish hc⟩
    · cases hs
  | aclose =>
    simp only [Writer.step] at hs
    split at hs
    · rename_i hc
      cases hs
      exact ⟨queued, h.closer (by rw [hc]; rfl) (by intro hcl; cases hcl)⟩
    · cases hs
  | put =>
    simp only [Writer.step] at hs
    split at hs
    · rename_i hc
      split at hs
      · cases hs
      · cases hs
        exact ⟨queued, h.put hc⟩
    · cases hs
  | join =>
    simp only [Writer.step] at hs
    split at hs
    · rename_i hc hdone
      cases hs
      exact ⟨queued, h.closer (by rw [hc]; rfl) fun _ => hdone⟩
    · cases hs

theorem of_reach {s : Writer α} (h : Reach (Writer.step cfg) NoLateSubmit {} s) :
    ∃ queued, Accounts cfg s queued := by
  refine h.invariant (P := fun s => ∃ queued, Accounts cfg s queued) ⟨[], start cfg⟩ ?_
  rintro s₁ a s₂ ⟨queued, hq⟩ hok hs
  exact hq.step hok hs

end Accounts

/-- The events of a queue, in order. -/
def events (queue : List (Item α)) : List α :=
  queue.filterMap fun
    | .event e => some e
    | .sentinel => none

theorem Accounts.events_queue {cfg : WriterConfig} {s : Writer α} {queued : List α}
    (h : Accounts cfg s queued) : events s.queue = queued := by
  have hmarker : events (marker s.closer.entered s.consumer.stopped : List (Item α)) = [] := by
    unfold marker
    split <;> rfl
  unfold events at hmarker ⊢
  rw [h.queue, List.filterMap_append, hmarker, List.append_nil, List.filterMap_map]
  exact List.filterMap_some

/-- **No event is lost, duplicated or reordered.** Under every schedule the batches handed over, then
what the consumer holds, then what is queued make up the accepted events in order; batches fit; every
refused submit is counted; and once the wait for the consumer has ended, every event submitted was
handed over or dropped. -/
theorem handed_exactly (cfg : WriterConfig) (s : Writer α)
    (h : Reach (step cfg) NoLateSubmit {} s) :
    s.handed.flatten ++ s.consumer.inFlight ++ events s.queue = s.accepted ∧
      (∀ batch ∈ s.handed, batch ≠ [] ∧ (batch.length : ℤ) ≤ max 1 cfg.batchSize) ∧
      s.dropped = s.refused ∧
      (s.closer = .closed → s.handed.flatten = s.accepted ∧
        s.submitted.length = s.handed.flatten.length + s.dropped) := by
  obtain ⟨queued, hq⟩ := Accounts.of_reach h
  refine ⟨by rw [hq.events_queue]; exact hq.flow, hq.handed, hq.counted, fun hclosed => ?_⟩
  have hdone := hq.closed hclosed
  have hall : s.handed.flatten = s.accepted := by
    have hflow := hq.flow
    rw [hdone, (hq.stopped (by rw [hdone]; rfl)).2] at hflow
    simpa [Consumer.inFlight] using hflow
  refine ⟨hall, ?_⟩
  rw [hall, hq.counted, accepted_length_add_refused]

instance (s : Writer α) (a : Action α) : Decidable (NoLateSubmit s a) :=
  match a with
  | .submit _ => inferInstanceAs (Decidable (_ = false))
  | .get | .timeout | .top | .call | .finish _ | .aclose | .put | .join =>
    inferInstanceAs (Decidable True)

/-- Room for two events and batches of two: the third submit is refused, the fourth event and the
sentinel arrive while the first batch is handled, which raises. -/
theorem handed_exactly_overflow :
    ([[1, 2], [4]] : List (List ℕ)).flatten = [1, 2, 4] ∧ 4 = [1, 2, 4].length + 1 := by
  have hrun : runActions (step { maxsize := 2, batchSize := 2 }) NoLateSubmit ({} : Writer ℕ)
      [.timeout, .submit 1, .submit 2, .submit 3, .get, .top, .top, .aclose, .call, .submit 4, .put,
        .finish true, .get, .top, .call, .finish false, .join] =
        some { dropped := 1, consumer := .done, closer := .closed, handed := [[1, 2], [4]]
               submitted := [(1, true), (2, true), (3, false), (4, true)] } := by decide
  exact (handed_exactly { maxsize := 2, batchSize := 2 } _ (.of_runActions hrun)).2.2.2 rfl

end Writer

end ApiTemplate.Telemetry
