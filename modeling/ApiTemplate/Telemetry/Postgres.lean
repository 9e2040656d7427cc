import ApiTemplate.Telemetry.Event
import Mathlib.Data.List.Perm.Basic
import Mathlib.Data.List.TakeWhile

/-!
# The Postgres writer

`PostgresWriter._handle_batch` over the two telemetry tables. A statement that fails raises and
changes nothing, a transaction whose body raises is rolled back, and every statement outside of a
transaction commits by itself. Which rows the database refuses is a parameter.
-/

namespace ApiTemplate.Telemetry

/-! ## The tables -/

/-- `_COLUMNS`; `ts` is computed from `epoch`. -/
structure LogRow where
  traceId : Option String
  kind : String
  service : String
  level : String
  epoch : ℚ
  execMs : Option ℚ
  userId : Option String
  ip : Option String
  method : Option String
  url : Option String
  urlParams : Option String
  data : Option String
  statusCode : Option ℤ
  userAgent : Option String
  message : Option String
  deriving DecidableEq

/-- The tables `telemetry_log` and `telemetry_log_traceback`, in the order of insertion, with the
default of `telemetry_log.id` and the foreign key of `log_id`. -/
structure LogStore where
  nextId : ℕ := 0
  log : List (ℕ × LogRow) := []
  tracebacks : List (ℕ × String) := []
  id_lt : ∀ r ∈ log, r.1 < nextId := by decide
  linked : ∀ t ∈ tracebacks, ∃ r ∈ log, r.1 = t.1 := by decide

namespace LogStore

/-- Every log row with the tracebacks that are linked to it. -/
def view (s : LogStore) : List (LogRow × List String) :=
  s.log.map fun r => (r.2, (s.tracebacks.filter fun t => t.1 = r.1).map Prod.snd)

/-- Insert one log row under a fresh id. -/
def insertLog (s : LogStore) (row : LogRow) : LogStore where
  nextId := s.nextId + 1
  log := s.log ++ [(s.nextId, row)]
  tracebacks := s.tracebacks
  id_lt := by
    intro r hr
    rcases List.mem_append.mp hr with hr | hr
    · exact Nat.lt_succ_of_lt (s.id_lt r hr)
    · rw [List.mem_singleton.mp hr]
      exact Nat.lt_succ_self _
  linked := by
    intro t ht
    obtain ⟨r, hr, hid⟩ := s.linked t ht
    exact ⟨r, List.mem_append_left _ hr, hid⟩

/-- Insert one traceback of a log row. -/
def insertTraceback (s : LogStore) (logId : ℕ) (text : String)
    (h : ∃ r ∈ s.log, r.1 = logId) : LogStore where
  nextId := s.nextId
  log := s.log
  tracebacks := s.tracebacks ++ [(logId, text)]
  id_lt := s.id_lt
  linked := by
    intro t ht
    rcases List.mem_append.mp ht with ht | ht
    · exact s.linked t ht
    · rw [List.mem_singleton.mp ht]
      exact h

/-- A fresh id has no traceback. -/
theorem filter_tracebacks_nextId (s : LogStore) :
    (s.tracebacks.filter fun t => t.1 = s.nextId) = [] := by
  rw [List.filter_eq_nil_iff]
  intro t ht
  obtain ⟨r, hr, hid⟩ := s.linked t ht
  have := s.id_lt r hr
  simp only [decide_eq_true_eq]
  omega

theorem exists_mem_insertLog (s : LogStore) (row : LogRow) :
    ∃ r ∈ (s.insertLog row).log, r.1 = s.nextId :=
  ⟨_, List.mem_append_right _ (List.mem_singleton_self _), rfl⟩

/-- A row under a fresh id stands without a traceback, and nothing else changes. -/
theorem view_insertLog (s : LogStore) (row : LogRow) :
    (s.insertLog row).view = s.view ++ [(row, [])] := by
  unfold view insertLog
  rw [List.map_append, List.map_singleton, filter_tracebacks_nextId, List.map_nil]

theorem view_foldl_insertLog (rows : List LogRow) (s : LogStore) :
    (rows.foldl insertLog s).view = s.view ++ rows.map fun row => (row, []) := by
  induction rows generalizing s with
  | nil => simp
  | cons row rows ih =>
    rw [List.foldl_cons, ih, view_insertLog]
    simp

/-- The traceback of a new row is linked to it alone. -/
theorem view_insertTraceback (s : LogStore) (row : LogRow) (text : String)
    (h : ∃ r ∈ (s.insertLog row).log, r.1 = s.nextId) :
    ((s.insertLog row).insertTraceback s.nextId text h).view = s.view ++ [(row, [text])] := by
  unfold view insertTraceback insertLog
  rw [List.map_append, List.map_singleton]
  congr 1
  · refine List.map_congr_left fun r hr => ?_
    have hne : s.nextId ≠ r.1 := by
      have := s.id_lt r hr
      omega
    simp [hne]
  · simp only [List.filter_append, List.map_append, filter_tracebacks_nextId]
    simp

end LogStore

/-! ## Statements on a connection -/

/-- The rows and the texts a database refuses. -/
structure Database where
  refuses : LogRow → Bool
  refusesText : String → Bool

/-- Why a statement raises. -/
inductive DbError
  | refused
  | notNull
  | foreignKey
  | duplicateKey
  deriving DecidableEq

/-- Statements on one connection. What has been committed before an exception stays. -/
abbrev Conn : Type → Type := ExceptT DbError (StateM LogStore)

namespace Conn

/-- `conn.executemany` of the log insert: all rows or none. -/
def executemany (db : Database) (rows : List LogRow) : Conn Unit := do
  if rows.any db.refuses then throw .refused
  modify fun s => rows.foldl LogStore.insertLog s

/-- `conn.fetchval` of the log insert that returns the id. -/
def fetchval (db : Database) (row : LogRow) : Conn ℕ := do
  if db.refuses row then throw .refused
  let s ← get
  set (s.insertLog row)
  return s.nextId

/-- `conn.execute` of the traceback insert. -/
def execute (db : Database) (logId : ℕ) (traceback : Option String) : Conn Unit := do
  let s ← get
  match traceback with
  | none => throw .notNull
  | some text =>
    if db.refusesText text then throw .refused
    if s.tracebacks.any fun t => t.1 = logId then throw .duplicateKey
    if h : ∃ r ∈ s.log, r.1 = logId then set (s.insertTraceback logId text h)
    else throw .foreignKey

/-- `conn.transaction()` -/
def transaction {α : Type} (body : Conn α) : Conn α := fun s =>
  match body s with
  | (.ok a, s') => (.ok a, s')
  | (.error e, _) => (.error e, s)

theorem get_bind {α : Type} (f : LogStore → Conn α) (s : LogStore) :
    (get >>= f : Conn α) s = f s s := rfl

theorem bind_ok {α β : Type} {x : Conn α} {f : α → Conn β} {s s' : LogStore} {a : α}
    (h : x s = (.ok a, s')) : (x >>= f) s = f a s' := by
  show (x s >>= fun r => ExceptT.bindCont f r.1 r.2) = f a s'
  rw [h]
  rfl

theorem bind_error {α β : Type} {x : Conn α} {f : α → Conn β} {s s' : LogStore} {e : DbError}
    (h : x s = (.error e, s')) : (x >>= f) s = (.error e, s') := by
  show (x s >>= fun r => ExceptT.bindCont f r.1 r.2) = (.error e, s')
  rw [h]
  rfl

theorem executemany_run (db : Database) (rows : List LogRow) (s : LogStore) :
    executemany db rows s =
      if rows.any db.refuses then (.error .refused, s)
      else (.ok (), rows.foldl LogStore.insertLog s) := by
  unfold executemany
  by_cases h : rows.any db.refuses
  · simp [h]
    rfl
  · simp [h]
    rfl

theorem fetchval_run (db : Database) (row : LogRow) (s : LogStore) :
    fetchval db row s =
      if db.refuses row then (.error .refused, s) else (.ok s.nextId, s.insertLog row) := by
  unfold fetchval
  by_cases h : db.refuses row
  · simp [h]
    rfl
  · simp [h]
    rfl

/-- The traceback of a fresh row meets neither key. -/
theorem execute_run (db : Database) (s : LogStore) (row : LogRow) (text : String) :
    execute db s.nextId (some text) (s.insertLog row) =
      if db.refusesText text then (.error .refused, s.insertLog row)
      else (.ok (), (s.insertLog row).insertTraceback s.nextId text
        (s.exists_mem_insertLog row)) := by
  have hfresh : (s.insertLog row).tracebacks.any (fun t => t.1 = s.nextId) = false := by
    rw [List.any_eq_false]
    intro t ht heq
    have hmem : t ∈ s.tracebacks.filter fun t => t.1 = s.nextId := List.mem_filter.mpr ⟨ht, heq⟩
    rw [s.filter_tracebacks_nextId] at hmem
    cases hmem
  have hrow := s.exists_mem_insertLog row
  unfold execute
  rw [get_bind]
  by_cases h : db.refusesText text
  · simp [h]
    rfl
  · simp [h, hfresh, hrow]
    rfl

end Conn

/-! ## The writer -/

/-- `pool` says whether `_on_start` has made the pool, and `encode` is `msgspec.json.encode`. -/
structure PostgresWriter where
  pool : Bool := false
  encode : Value → String

namespace PostgresWriter

def onStart (w : PostgresWriter) : PostgresWriter := { w with pool := true }

/-- `_to_row`, with `_json_or_none` on the JSON columns -/
def toRow (w : PostgresWriter) (event : TelemetryEvent) : LogRow where
  traceId := event.traceId
  kind := event.kind
  service := event.service
  level := event.level
  epoch := event.epoch
  execMs := event.execMs
  userId := event.userId
  ip := event.ip
  method := event.method
  url := event.url
  urlParams := event.urlParams.map w.encode
  data := event.data.map w.encode
  statusCode := event.statusCode
  userAgent := event.userAgent
  message := event.message

/-- `event.traceback` is truthy. -/
def carriesTraceback (event : TelemetryEvent) : Bool := event.traceback.any (· ≠ "")

/-- The transaction of one event that carries a stack. -/
def insertWithTraceback (w : PostgresWriter) (db : Database) (event : TelemetryEvent) :
    Conn Unit :=
  Conn.transaction do
    let logId ← Conn.fetchval db (w.toRow event)
    Conn.execute db logId event.traceback

/-- `_handle_batch` -/
def handleBatch (w : PostgresWriter) (db : Database) (batch : List TelemetryEvent) :
    Conn Unit := do
  if !w.pool then return
  let plainRows := (batch.filter fun e => !carriesTraceback e).map w.toRow
  let withTraceback := batch.filter carriesTraceback
  if !plainRows.isEmpty then Conn.executemany db plainRows
  withTraceback.forM fun event => w.insertWithTraceback db event

/-- What a batch that `_run` passes on leaves in the tables; an exception is logged and dropped. -/
def pass (w : PostgresWriter) (db : Database) (batch : List TelemetryEvent) (s : LogStore) :
    LogStore :=
  (w.handleBatch db batch s).2

/-- The database refuses an `INSERT` of the event. -/
def refused (w : PostgresWriter) (db : Database) (event : TelemetryEvent) : Bool :=
  db.refuses (w.toRow event) || carriesTraceback event && event.traceback.any db.refusesText

/-- What an event should leave: its log row, with its traceback if it carries one. -/
def entry (w : PostgresWriter) (event : TelemetryEvent) : LogRow × List String :=
  (w.toRow event, if carriesTraceback event then event.traceback.toList else [])

theorem traceback_of_carries {event : TelemetryEvent} (hc : carriesTraceback event = true) :
    ∃ text, event.traceback = some text := by
  rcases h : event.traceback with - | text
  · simp [carriesTraceback, h] at hc
  · exact ⟨text, rfl⟩

/-- **One event that carries a stack** leaves its entry, or nothing. -/
theorem insertWithTraceback_run (w : PostgresWriter) (db : Database) {event : TelemetryEvent}
    (hc : carriesTraceback event = true) (s : LogStore) :
    (w.refused db event = true ∧ w.insertWithTraceback db event s = (.error .refused, s)) ∨
    (w.refused db event = false ∧ ∃ s', w.insertWithTraceback db event s = (.ok (), s') ∧
      s'.view = s.view ++ [w.entry event]) := by
  obtain ⟨text, htext⟩ := traceback_of_carries hc
  have hrefused : w.refused db event = (db.refuses (w.toRow event) || db.refusesText text) := by
    simp [refused, hc, htext]
  have hentry : w.entry event = (w.toRow event, [text]) := by
    simp [entry, hc, htext]
  unfold insertWithTraceback Conn.transaction
  rw [hrefused, hentry, htext]
  by_cases hrow : db.refuses (w.toRow event) = true
  · have hfetch := Conn.fetchval_run db (w.toRow event) s
    rw [if_pos hrow] at hfetch
    refine .inl ⟨by simp [hrow], ?_⟩
    rw [Conn.bind_error hfetch]
  · have hfetch := Conn.fetchval_run db (w.toRow event) s
    rw [if_neg hrow] at hfetch
    have hexec := Conn.execute_run db s (w.toRow event) text
    by_cases hstack : db.refusesText text = true
    · rw [if_pos hstack] at hexec
      refine .inl ⟨by simp [hstack], ?_⟩
      rw [Conn.bind_ok hfetch, hexec]
    · rw [if_neg hstack] at hexec
      refine .inr ⟨by simp [hrow, hstack], _, ?_,
        s.view_insertTraceback _ _ (s.exists_mem_insertLog _)⟩
      rw [Conn.bind_ok hfetch, hexec]

/-- The events that carry a stack are inserted up to the first one that is refused. -/
theorem forM_insertWithTraceback (w : PostgresWriter) (db : Database)
    (events : List TelemetryEvent) (hc : ∀ e ∈ events, carriesTraceback e = true) (s : LogStore) :
    LogStore.view (events.forM (fun event => w.insertWithTraceback db event) s).2 =
      s.view ++ (events.takeWhile fun e => !w.refused db e).map w.entry := by
  induction events generalizing s with
  | nil =>
    show s.view = s.view ++ []
    rw [List.append_nil]
  | cons event events ih =>
    have hcons : (event :: events).forM (fun event => w.insertWithTraceback db event) =
        w.insertWithTraceback db event >>= fun _ =>
          events.forM fun event => w.insertWithTraceback db event := rfl
    rw [hcons]
    rcases w.insertWithTraceback_run db (hc event (List.mem_cons_self ..)) s with
      ⟨href, hrun⟩ | ⟨href, s', hrun, hview⟩
    · rw [Conn.bind_error hrun]
      simp [href]
    · rw [Conn.bind_ok hrun, ih (fun e he => hc e (List.mem_cons_of_mem _ he)) s', hview]
      simp [href]

/-- The events of a batch that get their entry. -/
def written (w : PostgresWriter) (db : Database) (batch : List TelemetryEvent) :
    List TelemetryEvent :=
  let plain := batch.filter fun e => !carriesTraceback e
  if plain.any (w.refused db) then []
  else plain ++ (batch.filter carriesTraceback).takeWhile fun e => !w.refused db e

/-- **What a batch leaves.** The plain events are written all or not at all; if they are not,
nothing is. -/
theorem view_pass (w : PostgresWriter) (db : Database) (batch : List TelemetryEvent)
    (s : LogStore) (hpool : w.pool = true) :
    (w.pass db batch s).view = s.view ++ (w.written db batch).map w.entry := by
  have hcarry : ∀ e ∈ batch.filter carriesTraceback, carriesTraceback e = true :=
    fun e he => (List.mem_filter.mp he).2
  have hplain : ∀ e ∈ batch.filter (fun e => !carriesTraceback e), carriesTraceback e = false :=
    fun e he => by simpa using (List.mem_filter.mp he).2
  have hany : ((batch.filter fun e => !carriesTraceback e).map w.toRow).any db.refuses =
      (batch.filter fun e => !carriesTraceback e).any (w.refused db) := by
    rw [List.any_map, List.any_filter, List.any_filter]
    refine List.any_congr rfl fun e => ?_
    rcases h : carriesTraceback e with - | - <;> simp [refused, h]
  have hstacks := w.forM_insertWithTraceback db _ hcarry
  unfold pass handleBatch written
  simp only [hpool]
  by_cases hempty : (batch.filter fun e => !carriesTraceback e) = []
  · simp only [hempty]
    exact hstacks s
  · have hne : ((batch.filter fun e => !carriesTraceback e).map w.toRow).isEmpty = false := by
      rw [List.isEmpty_eq_false_iff]
      exact fun h => hempty (List.map_eq_nil_iff.mp h)
    have hexec := Conn.executemany_run db
      ((batch.filter fun e => !carriesTraceback e).map w.toRow) s
    rw [hany] at hexec
    simp only [hne, Bool.not_true, Bool.not_false, Bool.false_eq_true, if_false, if_true]
    by_cases href : (batch.filter fun e => !carriesTraceback e).any (w.refused db) = true
    · rw [if_pos href] at hexec
      rw [if_pos href, List.map_nil, List.append_nil]
      rw [Conn.bind_error hexec]
    · rw [if_neg href] at hexec
      rw [if_neg href]
      rw [Conn.bind_ok hexec, hstacks, LogStore.view_foldl_insertLog, List.map_append,
        ← List.append_assoc, List.map_map]
      congr 2
      refine List.map_congr_left fun e he => ?_
      simp [entry, hplain e he]

/-! ## When every accepted event is recorded -/

/-- The new log rows and their tracebacks are exactly those of the events that the database does
not refuse, one each, and no traceback stands without its log row. -/
def Recorded (w : PostgresWriter) (db : Database) (batch : List TelemetryEvent)
    (s s' : LogStore) : Prop :=
  (∃ new, s'.view = s.view ++ new ∧
    new.Perm ((batch.filter fun e => !w.refused db e).map w.entry)) ∧
    ∀ t ∈ s'.tracebacks, ∃ r ∈ s'.log, r.1 = t.1

/-- No refused event is in the way of another one: a refused plain event only where all events are
refused, and no event with a stack after a refused one. -/
def NoneBlocked (w : PostgresWriter) (db : Database) (batch : List TelemetryEvent) : Prop :=
  ((∃ e ∈ batch, carriesTraceback e = false ∧ w.refused db e = true) →
    ∀ e ∈ batch, w.refused db e = true) ∧
  (batch.filter carriesTraceback).Pairwise fun e e' =>
    w.refused db e = true → w.refused db e' = true

/-- The prefix of a list before its first bad element has all its good elements exactly if no good
element follows a bad one. -/
theorem length_takeWhile_eq_iff {α : Type} (bad : α → Bool) (l : List α) :
    (l.takeWhile fun a => !bad a).length = (l.filter fun a => !bad a).length ↔
      l.Pairwise fun a b => bad a = true → bad b = true := by
  induction l with
  | nil => simp
  | cons a l ih =>
    by_cases h : bad a = true
    · have hpair : (∀ b ∈ l, bad b = true) → l.Pairwise fun a b => bad a = true → bad b = true :=
        fun hall => List.pairwise_of_forall_mem_list fun _ _ b hb _ => hall b hb
      simpa [h, List.pairwise_cons, eq_comm (a := 0), List.filter_eq_nil_iff] using hpair
    · simp [h, List.pairwise_cons, ih]

theorem takeWhile_sublist_filter {α : Type} (p : α → Bool) (l : List α) :
    (l.takeWhile p).Sublist (l.filter p) := by
  have h := (List.takeWhile_sublist (l := l) p).filter p
  rwa [List.filter_eq_self.mpr fun a ha => List.mem_takeWhile_imp ha] at h

/-- The accepted events, the plain ones first. -/
theorem accepted_perm (w : PostgresWriter) (db : Database) (batch : List TelemetryEvent) :
    (((batch.filter fun e => !carriesTraceback e).filter fun e => !w.refused db e) ++
      (batch.filter carriesTraceback).filter fun e => !w.refused db e).Perm
      (batch.filter fun e => !w.refused db e) := by
  rw [← List.filter_append]
  refine List.Perm.filter _ (List.perm_append_comm.trans ?_)
  exact List.filter_append_perm carriesTraceback batch

theorem filter_plain (w : PostgresWriter) (db : Database) (batch : List TelemetryEvent)
    (h : ¬ (batch.filter fun e => !carriesTraceback e).any (w.refused db) = true) :
    (batch.filter fun e => !carriesTraceback e).filter (fun e => !w.refused db e) =
      batch.filter fun e => !carriesTraceback e := by
  rw [List.filter_eq_self]
  intro e he
  simpa using fun href => h (List.any_eq_true.mpr ⟨e, he, href⟩)

/-- If as many events are written as are accepted, none was blocked. -/
theorem noneBlocked_of_length (w : PostgresWriter) (db : Database) (batch : List TelemetryEvent)
    (h : (w.written db batch).length = (batch.filter fun e => !w.refused db e).length) :
    w.NoneBlocked db batch := by
  unfold written at h
  by_cases hplain : (batch.filter fun e => !carriesTraceback e).any (w.refused db) = true
  · rw [if_pos hplain] at h
    have hall : ∀ e ∈ batch, w.refused db e = true := by
      simpa [List.filter_eq_nil_iff] using List.length_eq_zero_iff.mp h.symm
    refine ⟨fun _ => hall, ?_⟩
    exact List.pairwise_of_forall_mem_list fun _ _ b hb _ => hall b (List.mem_filter.mp hb).1
  · rw [if_neg hplain] at h
    have hnone : ¬ ∃ e ∈ batch, carriesTraceback e = false ∧ w.refused db e = true := by
      simpa [List.any_filter] using hplain
    refine ⟨fun hex => absurd hex hnone, (length_takeWhile_eq_iff _ _).mp ?_⟩
    have hperm := (w.accepted_perm db batch).length_eq
    have hkept := w.filter_plain db batch hplain
    rw [hkept, ← h, List.length_append, List.length_append] at hperm
    omega

/-- If no event is blocked, the written events are the accepted ones. -/
theorem written_perm (w : PostgresWriter) (db : Database) (batch : List TelemetryEvent)
    (h : w.NoneBlocked db batch) :
    (w.written db batch).Perm (batch.filter fun e => !w.refused db e) := by
  unfold written
  by_cases hplain : (batch.filter fun e => !carriesTraceback e).any (w.refused db) = true
  · have hex : ∃ e ∈ batch, carriesTraceback e = false ∧ w.refused db e = true := by
      simpa [List.any_filter] using hplain
    have hnone : (batch.filter fun e => !w.refused db e) = [] := by
      simpa [List.filter_eq_nil_iff] using h.1 hex
    rw [if_pos hplain, hnone]
  · have hkept := w.filter_plain db batch hplain
    have hstacks : (batch.filter carriesTraceback).takeWhile (fun e => !w.refused db e) =
        (batch.filter carriesTraceback).filter fun e => !w.refused db e :=
      (takeWhile_sublist_filter _ _).eq_of_length ((length_takeWhile_eq_iff _ _).mpr h.2)
    rw [if_neg hplain, hstacks]
    have hperm := w.accepted_perm db batch
    rwa [hkept] at hperm

/-- **Which batches are recorded.** -/
theorem recorded_iff (w : PostgresWriter) (db : Database) (batch : List TelemetryEvent)
    (s : LogStore) :
    w.onStart.Recorded db batch s (w.onStart.pass db batch s) ↔
      w.onStart.NoneBlocked db batch := by
  have hview := w.onStart.view_pass db batch s rfl
  constructor
  · rintro ⟨⟨new, hnew, hperm⟩, -⟩
    have hnew : new = (w.onStart.written db batch).map w.onStart.entry :=
      List.append_cancel_left (hnew.symm.trans hview)
    have hlength := hperm.length_eq
    rw [hnew, List.length_map, List.length_map] at hlength
    exact w.onStart.noneBlocked_of_length db batch hlength
  · intro h
    exact ⟨⟨_, hview, (w.onStart.written_perm db batch h).map _⟩, LogStore.linked _⟩

/-- An address taken from the `X-Forwarded-For: unknown` of one request keeps the other event of
the batch out of the log. -/
theorem recorded_poisoned :
    ¬ ∀ (w : PostgresWriter) (db : Database) (batch : List TelemetryEvent) (s : LogStore),
      w.onStart.Recorded db batch s (w.onStart.pass db batch s) := by
  intro hall
  have hrec := hall { encode := fun _ => "null" }
    { refuses := fun row => row.ip = some "unknown", refusesText := fun _ => false }
    [{ service := "api", epoch := 0, ip := some "127.0.0.1" },
      { service := "api", epoch := 0, ip := some "unknown" }] {}
  obtain ⟨⟨new, hnew, hperm⟩, -⟩ := hrec
  have hempty : new = [] := hnew.symm
  rw [hempty] at hperm
  have hlength : 0 = 1 := hperm.length_eq
  cases hlength

end PostgresWriter

end ApiTemplate.Telemetry
