import ApiTemplate.Telemetry.Runner
import ApiTemplate.Telemetry.TelegramDelivery

/-!
# What the writers are given

`build_composer` of `runner.py`: the pipeline and the writers that the configuration asks for. Each
writer has a rule of its own, read off the configuration, and over a run of the daemon it is given
the events of its rule and no others.
-/

namespace ApiTemplate.Telemetry

open Filters TxStore

/-! ## `infra_configs.py` -/

structure TelemetryConfig where
  minLevel : String := "INFO"
  telegramMinLevel : String := "ERROR"
  excludeUrlPrefixes : String := "/healthcheck,/api/v1/docs,/api/v1/get-schema"
  postgresEnabled : Bool := true
  telegramEnabled : Bool := false
  postgresTable : String := "telemetry_log"
  postgresBatchSize : ℤ := 200

/-- `excluded_prefixes` -/
def TelemetryConfig.excludedPrefixes (tel : TelemetryConfig) : List String :=
  ((tel.excludeUrlPrefixes.toList.splitOn ',').map stripText).filterMap fun p =>
    if p = [] then none else some (String.ofList p)

structure TelegramConfig where
  botToken : Option String := none
  chatId : Option String := none
  systemChatId : Option String := none
  serviceRoutes : String := ""
  levelRoutes : String := ""
  globalRate : ℚ := 25
  perChatRate : ℚ := 1

/-- An optional text, where it is true. -/
def filled (text : Option String) : Option String := text.filter (· ≠ "")

/-- `enabled` -/
def TelegramConfig.enabled (tg : TelegramConfig) : Bool :=
  (filled tg.botToken).isSome && (filled tg.chatId).isSome

structure DatabaseConfig where
  db : String
  user : String
  password : String
  host : String := "localhost"
  port : ℤ := 5432

/-- `asyncpg_dsn` -/
def DatabaseConfig.asyncpgDsn (db : DatabaseConfig) : String :=
  "postgresql://" ++ db.user ++ ":" ++ db.password ++ "@" ++ db.host ++ ":" ++
    toString db.port ++ "/" ++ db.db

/-! ## `build_composer` -/

/-- A writer with what its constructor is given. -/
inductive Sink
  | postgres (dsn table : String) (batchSize : ℤ)
  | telegram (botToken : String) (cfg : TelegramWriter.Config)

/-- What the constructor makes of the queue. -/
def Sink.queue : Sink → WriterConfig
  | .postgres _ _ batchSize => { maxsize := 50000, batchSize }
  | .telegram _ _ => { maxsize := 10000, batchSize := 1 }

def Sink.alerts : Sink → Bool
  | .postgres .. => false
  | .telegram .. => true

section

variable {Env : Type}

/-- `_telegram_route` -/
def telegramRoute (minLevel : String) : RecordFilter Env := fun env event => do
  if event.kind = KIND_SYSTEM then return true
  if ← MinLevel minLevel env event then return true
  StatusAtLeast 500 false env event

/-- The Telegram writer of a configuration; none where a destination raises. -/
def telegramSink (tg : TelegramConfig) : Option Sink := do
  let default ← parseDestination (tg.chatId.getD "").toList
  let system ← (filled tg.systemChatId).mapM fun text => parseDestination text.toList
  let serviceRoutes ← parseDestinationMap tg.serviceRoutes.toList
  let levelRoutes ← parseDestinationMap tg.levelRoutes.toList
  return .telegram (tg.botToken.getD "") {
    routes := { default, system, serviceRoutes, levelRoutes }
    globalRate := tg.globalRate
    perChatRate := tg.perChatRate }

/-- The routes of `build_composer`. -/
def buildRoutes (tel : TelemetryConfig) (tg : TelegramConfig) (db : DatabaseConfig) :
    Option (List (Sink × RecordFilter Env)) :=
  let stored := if tel.postgresEnabled then
    [(Sink.postgres db.asyncpgDsn tel.postgresTable tel.postgresBatchSize, FilterPipeline [])]
    else []
  let alerted := if tel.telegramEnabled && tg.enabled then
    (telegramSink tg).map fun sink => [(sink, telegramRoute tel.telegramMinLevel)]
    else some []
  alerted.map (stored ++ ·)

/-- `build_composer`. A writer is told from the others by the number of its route. -/
def composerOf (tel : TelemetryConfig) (routes : List (Sink × RecordFilter Env)) :
    TelemetryComposer Env where
  globalFilters := [MinLevel tel.minLevel, ExcludeUrls tel.excludedPrefixes]
  routes := routes.mapIdx fun i route => ⟨i, route.2⟩

/-- The queues of the writers, by the number of their routes. -/
def queuesOf (routes : List (Sink × RecordFilter Env)) (i : ℕ) : WriterConfig :=
  ((routes[i]?).map fun route => route.1.queue).getD {}

/-! ## The rules -/

/-- The event is no less severe than the least level, and its url begins with no excluded text. -/
def TelemetryConfig.gate (tel : TelemetryConfig) (event : TelemetryEvent) : Bool :=
  levelNo tel.minLevel ≤ levelNo event.level &&
    !tel.excludedPrefixes.any fun p => p.toList.isPrefixOf (event.url.getD "").toList

/-- The event is severe, or is about a failure of the server. -/
def TelemetryConfig.alarms (tel : TelemetryConfig) (event : TelemetryEvent) : Bool :=
  levelNo tel.telegramMinLevel ≤ levelNo event.level || 500 ≤ event.statusCode.getD 0

/-- What a writer is for. -/
def TelemetryConfig.wants (tel : TelemetryConfig) (event : TelemetryEvent) : Sink → Bool
  | .postgres .. => event.kind = KIND_SYSTEM || tel.gate event
  | .telegram .. => event.kind = KIND_SYSTEM || (tel.gate event && tel.alarms event)

theorem ne_empty_of_mem_excludedPrefixes {tel : TelemetryConfig} {p : String}
    (h : p ∈ tel.excludedPrefixes) : p.toList ≠ [] := by
  obtain ⟨text, -, htext⟩ := List.mem_filterMap.mp h
  split_ifs at htext with hempty
  cases htext
  rwa [String.toList_ofList]

/-- A text that is not there begins with no excluded text. -/
theorem any_excludedPrefixes_empty (tel : TelemetryConfig) :
    (tel.excludedPrefixes.any fun p => p.toList.isPrefixOf ("" : String).toList) = false := by
  rw [List.any_eq_false]
  intro p hp hbegins
  refine ne_empty_of_mem_excludedPrefixes hp (List.prefix_nil.mp ?_)
  exact List.isPrefixOf_iff_prefix.mp hbegins

theorem excludeUrls_eq (tel : TelemetryConfig) (env : Env) (event : TelemetryEvent) :
    ExcludeUrls tel.excludedPrefixes env event =
      .ok !tel.excludedPrefixes.any fun p => p.toList.isPrefixOf (event.url.getD "").toList := by
  unfold ExcludeUrls
  cases event.url with
  | none => rw [Option.getD_none, any_excludedPrefixes_empty]; rfl
  | some url =>
    show (if url = "" then _ else _) = _
    split_ifs with hempty
    · rw [Option.getD_some, hempty, any_excludedPrefixes_empty]
      rfl
    · rfl

/-- The global pipeline raises nothing. -/
theorem pipeline_eq (tel : TelemetryConfig) (routes : List (Sink × RecordFilter Env)) (env : Env)
    (event : TelemetryEvent) :
    FilterPipeline (composerOf tel routes).globalFilters env event = .ok (tel.gate event) := by
  show FilterPipeline [MinLevel tel.minLevel, ExcludeUrls tel.excludedPrefixes] env event = _
  unfold TelemetryConfig.gate
  by_cases hlevel : levelNo tel.minLevel ≤ levelNo event.level
  · simp only [FilterPipeline, MinLevel, excludeUrls_eq, hlevel]
    cases tel.excludedPrefixes.any _ <;> rfl
  · simp only [FilterPipeline, MinLevel, hlevel]
    rfl

theorem telegramRoute_eq (tel : TelemetryConfig) (env : Env) (event : TelemetryEvent) :
    telegramRoute tel.telegramMinLevel env event =
      .ok (event.kind = KIND_SYSTEM || tel.alarms event) := by
  unfold telegramRoute TelemetryConfig.alarms
  by_cases hkind : event.kind = KIND_SYSTEM
  · simp only [hkind]
    rfl
  · by_cases hlevel : levelNo tel.telegramMinLevel ≤ levelNo event.level
    · simp only [hkind, MinLevel, hlevel]
      rfl
    · simp only [hkind, MinLevel, hlevel, StatusAtLeast]
      cases event.statusCode <;> rfl

variable {tel : TelemetryConfig} {tg : TelegramConfig} {db : DatabaseConfig}
  {routes : List (Sink × RecordFilter Env)}

/-- The daemon does not start where it shall alert and one of the destinations raises. -/
theorem buildRoutes_isSome_iff :
    (buildRoutes tel tg db : Option (List (Sink × RecordFilter Env))).isSome ↔
      ((tel.telegramEnabled && tg.enabled) = true →
        Readable (tg.chatId.getD "").toList ∧
          (∀ text, filled tg.systemChatId = some text → Readable text.toList) ∧
          (∀ pair ∈ routePairs tg.serviceRoutes.toList, Readable pair.2) ∧
          ∀ pair ∈ routePairs tg.levelRoutes.toList, Readable pair.2) := by
  have hsink : (telegramSink tg).isSome ↔
      Readable (tg.chatId.getD "").toList ∧
        (∀ text, filled tg.systemChatId = some text → Readable text.toList) ∧
        (∀ pair ∈ routePairs tg.serviceRoutes.toList, Readable pair.2) ∧
        ∀ pair ∈ routePairs tg.levelRoutes.toList, Readable pair.2 := by
    rw [← parseDestinationMap_isSome_iff, ← parseDestinationMap_isSome_iff]
    simp only [← parseDestination_isSome_iff]
    unfold telegramSink
    cases parseDestination (tg.chatId.getD "").toList with
    | none => simp
    | some default =>
      cases filled tg.systemChatId with
      | none =>
        cases parseDestinationMap tg.serviceRoutes.toList <;>
          cases parseDestinationMap tg.levelRoutes.toList <;> simp
      | some text =>
        cases hsystem : parseDestination text.toList <;>
          cases parseDestinationMap tg.serviceRoutes.toList <;>
            cases parseDestinationMap tg.levelRoutes.toList <;> simp [hsystem]
  unfold buildRoutes
  rw [Option.isSome_map, ← hsink]
  split_ifs with htelegram
  · rw [Option.isSome_map]
    exact ⟨fun h _ => h, fun h => h htelegram⟩
  · exact ⟨fun _ h => absurd h htelegram, fun _ => rfl⟩

/-- A route lets through, of what the pipeline does, what its writer is for. -/
def Serves (tel : TelemetryConfig) (route : Sink × RecordFilter Env) : Prop :=
  ∀ env event, ((event.kind = KIND_SYSTEM || tel.gate event) &&
    returnsTrue (route.2 env event)) = tel.wants event route.1

/-- The routes are the one to Postgres and the one to Telegram, where they are enabled. -/
theorem buildRoutes_cases (h : buildRoutes tel tg db = some routes) :
    ∃ stored alerted, routes = stored ++ alerted ∧
      stored = (if tel.postgresEnabled then
        [(Sink.postgres db.asyncpgDsn tel.postgresTable tel.postgresBatchSize, FilterPipeline [])]
        else []) ∧
      if tel.telegramEnabled && tg.enabled then
        ∃ sink, telegramSink tg = some sink ∧ alerted = [(sink, telegramRoute tel.telegramMinLevel)]
      else alerted = [] := by
  obtain ⟨alerted, halerted, rfl⟩ := Option.map_eq_some_iff.mp h
  refine ⟨_, alerted, rfl, rfl, ?_⟩
  split_ifs at halerted ⊢
  · obtain ⟨sink, hsink, rfl⟩ := Option.map_eq_some_iff.mp halerted
    exact ⟨sink, hsink, rfl⟩
  · cases halerted
    rfl

theorem telegramSink_cases {sink : Sink} (h : telegramSink tg = some sink) :
    ∃ botToken cfg, sink = .telegram botToken cfg := by
  simp only [telegramSink, Option.bind_eq_bind, Option.bind_eq_some_iff] at h
  obtain ⟨_, -, _, -, _, -, _, -, hsink⟩ := h
  cases hsink
  exact ⟨_, _, rfl⟩

theorem serves_of_mem (h : buildRoutes tel tg db = some routes) {route : Sink × RecordFilter Env}
    (hmem : route ∈ routes) : Serves tel route := by
  have hstored : ∀ dsn table n,
      Serves tel ((.postgres dsn table n, FilterPipeline []) : Sink × RecordFilter Env) := by
    intro dsn table n env event
    exact Bool.and_true _
  have halerted : ∀ sink, telegramSink tg = some sink →
      Serves tel ((sink, telegramRoute tel.telegramMinLevel) : Sink × RecordFilter Env) := by
    intro sink hsink env event
    obtain ⟨botToken, cfg, rfl⟩ := telegramSink_cases hsink
    show ((_ || _) && returnsTrue (telegramRoute tel.telegramMinLevel env event)) = (_ || _ && _)
    rw [telegramRoute_eq]
    exact (Bool.or_and_distrib_left _ _ _).symm
  obtain ⟨stored, alerted, rfl, hstore, halert⟩ := buildRoutes_cases h
  rcases List.mem_append.mp hmem with hmem | hmem
  · rw [hstore] at hmem
    split_ifs at hmem
    · obtain rfl := List.mem_singleton.mp hmem
      exact hstored _ _ _
    · exact absurd hmem List.not_mem_nil
  · split_ifs at halert
    · obtain ⟨sink, hsink, rfl⟩ := halert
      obtain rfl := List.mem_singleton.mp hmem
      exact halerted sink hsink
    · exact absurd (halert ▸ hmem) List.not_mem_nil

/-- The pipeline ends no dispatch with an exception. -/
theorem dispatch_fst (tel : TelemetryConfig) (routes : List (Sink × RecordFilter Env)) (env : Env)
    (event : TelemetryEvent) : ((composerOf tel routes).dispatch env event).1 = .ok () := by
  unfold TelemetryComposer.dispatch
  rw [pipeline_eq]
  split_ifs
  · cases tel.gate event <;> rfl
  · rfl

theorem admits_eq (tel : TelemetryConfig) (routes : List (Sink × RecordFilter Env)) (env : Env)
    (event : TelemetryEvent) :
    (composerOf tel routes).admits env event = (event.kind = KIND_SYSTEM || tel.gate event) := by
  unfold TelemetryComposer.admits
  rw [← returnsTrue_pipeline, pipeline_eq]
  rfl

namespace Runner

/-- What a route passes on is what its writer is for. -/
theorem passed_eq (h : buildRoutes tel tg db = some routes)
    (i : Fin (composerOf tel routes).routes.length) (hi : i < routes.length)
    (calls : List (Env × TelemetryEvent)) :
    passed (composerOf tel routes) i calls =
      (calls.map Prod.snd).filter fun event => tel.wants event (routes.get ⟨i, hi⟩).1 := by
  have hroute : ((composerOf tel routes).routes.get i).destination = (routes.get ⟨i, hi⟩).2 := by
    show ((routes.mapIdx fun i route => (⟨i, route.2⟩ : Route Env))[i]).destination = _
    rw [Fin.getElem_fin, List.getElem_mapIdx]
    rfl
  unfold passed
  rw [List.filter_map, hroute]
  refine congrArg _ (List.filter_congr fun call _ => ?_)
  rw [admits_eq]
  exact serves_of_mem h (List.get_mem _ _) call.1 call.2

variable {decode : ℚ → Bytes → Option TelemetryEvent} {files : FileSystem} {pattern : Path → Bool}
  {fromEnd : Bool} {s : Runner Env}

/-- No exception of a filter ends `_consume`. -/
theorem escaped_of_reach (h : Reachable (step decode (composerOf tel routes) (queuesOf routes))
    (start files pattern fromEnd) s) : s.escaped = none := by
  refine h.invariant (P := fun s => s.escaped = none) rfl fun s a s' hnone _ hs => ?_
  rcases step_cases hs with ⟨_, _, -, -, -, rfl⟩ | ⟨env, event, _, -, -, -, -, rfl⟩ |
    ⟨_, _, _, -, -, -, -, rfl⟩ | ⟨-, -, rfl⟩ | ⟨_, -, -, -, rfl⟩ | ⟨_, _, _, -, -, -, -, -, rfl⟩
  case inr.inl =>
    have hreturns := dispatch_fst tel routes env event
    unfold dispatch
    generalize (composerOf tel routes).dispatch env event = answer at hreturns ⊢
    obtain ⟨result, submissions⟩ := answer
    obtain rfl : result = .ok () := hreturns
    exact hnone
  all_goals exact hnone

/-- **Every writer is given its own.** However the daemon is configured and whatever happens to it,
no filter ends it, and the writers it has are the ones the configuration enables; each of them has
been given, in the order of their dispatch, the events its rule names, and has handed over none
outside. -/
theorem writers_given_theirs (hroutes : buildRoutes tel tg db = some routes)
    (h : Reachable (step decode (composerOf tel routes) (queuesOf routes))
      (start files pattern fromEnd) s) :
    s.escaped = none ∧
      routes.map (·.1.alerts) = (if tel.postgresEnabled then [false] else []) ++
        (if tel.telegramEnabled && tg.enabled then [true] else []) ∧
      ∀ i : Fin routes.length,
        (s.writers i).submitted.map Prod.fst =
          s.daemon.dispatched.filter (tel.wants · (routes.get i).1) ∧
        ∀ event ∈ (s.writers i).handed.flatten, tel.wants event (routes.get i).1 = true := by
  have hbooks := books_of_reach h
  refine ⟨escaped_of_reach h, ?_, fun i => ?_⟩
  · obtain ⟨stored, alerted, rfl, rfl, halert⟩ := buildRoutes_cases hroutes
    rw [List.map_append]
    congr 1
    · split_ifs <;> rfl
    · split_ifs at halert ⊢
      · obtain ⟨sink, hsink, rfl⟩ := halert
        obtain ⟨botToken, cfg, rfl⟩ := telegramSink_cases hsink
        rfl
      · rw [halert]
        rfl
  · have hi : i.val < (composerOf tel routes).routes.length := by
      show _ < (routes.mapIdx _).length
      rw [List.length_mapIdx]
      exact i.isLt
    have hpassed := passed_eq hroutes ⟨i, hi⟩ i.isLt s.calls
    rw [hbooks.calls] at hpassed
    refine ⟨(hbooks.submitted_eq ⟨i, hi⟩).trans hpassed, fun event hevent => ?_⟩
    have hmem := hbooks.mem_passed ⟨i, hi⟩ hevent
    rw [hpassed] at hmem
    exact (List.mem_filter.mp hmem).2

/-- A line that begins with `e` is an error, any other an ordinary record. -/
def severities (epoch : ℚ) (line : Bytes) : Option TelemetryEvent :=
  some { service := "api", epoch, level := if line.head? = some 0x65 then "ERROR" else "INFO" }

def alerting : TelemetryConfig := { telegramEnabled := true }

/-- What is stored and alerted by default, with one chat. -/
def oneChat : Option (List (Sink × RecordFilter Unit)) :=
  buildRoutes alerting { botToken := some "1:x", chatId := some "-5" }
    { db := "app", user := "app", password := "app" }

theorem isSome_oneChat : oneChat.isSome := by
  refine buildRoutes_isSome_iff.mpr fun _ => ⟨fun chatId thread h => ?_, fun text h => ?_,
    fun pair h => ?_, fun pair h => ?_⟩
  -- a chat without a colon names no thread
  · have hnone : rpartition ':' (stripText "-5".toList) = none := by decide
    cases hnone.symm.trans h
  · cases h
  · have hnil : routePairs "".toList = [] := by decide
    exact absurd (hnil ▸ h) List.not_mem_nil
  · have hnil : routePairs "".toList = [] := by decide
    exact absurd (hnil ▸ h) List.not_mem_nil

/-- An error and a record are dispatched, and the second writer hands over what it has. -/
def errorAlerted : Option (Runner Unit) :=
  runActions (step severities (composerOf alerting (oneChat.get isSome_oneChat))
      (queuesOf (oneChat.get isSome_oneChat))) (fun _ _ => True) (start ∅ (fun _ => true) false)
    [.produce (.create apiLog 7), .produce (.append apiLog [0x65, 0x0A, 0x62, 0x0A]),
      .poll, .collect {} (fun _ => false), .deliver, .next (), .next (), .consume 1 .get,
      .consume 1 .top, .consume 1 .call, .consume 1 (.finish true)]

theorem isSome_errorAlerted : errorAlerted.isSome := by decide +kernel

/-- Of the two events the chat is given one, which its rule names. -/
theorem writers_given_theirs_errorAlerted :
    let s := errorAlerted.get isSome_errorAlerted
    (s.daemon.dispatched.length, (s.writers 1).handed.flatten.length) = (2, 1) ∧
      ∀ event ∈ (s.writers 1).handed.flatten, ∀ sink ∈ (oneChat.get isSome_oneChat)[1]?,
        alerting.wants event sink.1 = true := by
  have hcounts : ((errorAlerted.get isSome_errorAlerted).daemon.dispatched.length,
      ((errorAlerted.get isSome_errorAlerted).writers 1).handed.flatten.length) = (2, 1) := by
    decide +kernel
  have hreach : Reachable (step severities (composerOf alerting (oneChat.get isSome_oneChat))
      (queuesOf (oneChat.get isSome_oneChat))) (start ∅ (fun _ => true) false)
      (errorAlerted.get isSome_errorAlerted) :=
    Reach.of_runActions (Option.some_get isSome_errorAlerted).symm
  have htwo : 1 < (oneChat.get isSome_oneChat).length := by decide
  refine ⟨hcounts, fun event hevent sink hsink => ?_⟩
  generalize errorAlerted.get isSome_errorAlerted = s at hreach hevent
  have hbuilt : buildRoutes alerting _ _ = some (oneChat.get isSome_oneChat) :=
    (Option.some_get isSome_oneChat).symm
  rw [← (List.getElem?_eq_some_iff.mp hsink).2]
  exact ((writers_given_theirs hbuilt hreach).2.2 ⟨1, htwo⟩).2 event hevent

end Runner

end

end ApiTemplate.Telemetry
