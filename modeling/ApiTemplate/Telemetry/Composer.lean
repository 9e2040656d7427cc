import ApiTemplate.Telemetry.Event
import Mathlib.Algebra.Order.Ring.Unbundled.Rat
import Mathlib.Data.List.Basic

/-!
# The composer

`TelemetryComposer.dispatch` with the filters of `filters/`: a pipeline that every event but the
system's has to pass, then a destination filter for each writer. A filter sees the event and
whatever else it reads, such as a random number, and returns or raises.
-/

namespace ApiTemplate.Telemetry

/-! ## `filters/base.py` -/

/-- A filter that may read more than the event; an exception is given by its text. -/
abbrev RecordFilter (Env : Type) : Type := Env → TelemetryEvent → Except String Bool

variable {Env : Type}

/-- `FilterPipeline.passes`, also the pipeline as a filter. -/
def FilterPipeline : List (RecordFilter Env) → RecordFilter Env
  | [], _, _ => .ok true
  | flt :: filters, env, event => do
    if !(← flt env event) then return false
    FilterPipeline filters env event

/-! ## `filters/common.py` -/

namespace Filters

/-- `logging.getLevelName` of the name of a level. -/
def levelNumber : String → Option ℤ
  | "CRITICAL" => some 50
  | "FATAL" => some 50
  | "ERROR" => some 40
  | "WARN" => some 30
  | "WARNING" => some 30
  | "INFO" => some 20
  | "DEBUG" => some 10
  | "NOTSET" => some 0
  | _ => none

/-- `str.upper`. Outside ASCII, what is read of it is the two letters with an ASCII upper case. -/
def upperChar (c : Char) : Char := if c = 'ſ' then 'S' else if c = 'ı' then 'I' else c.toUpper

/-- `_level_no` -/
def levelNo (level : String) : ℤ := (levelNumber (level.map upperChar)).getD 20

def MinLevel (level : String) : RecordFilter Env :=
  fun _ event => .ok (levelNo level ≤ levelNo event.level)

def ServiceIn (services : List String) : RecordFilter Env :=
  fun _ event => .ok (event.service ∈ services)

def KindIn (kinds : List String) : RecordFilter Env := fun _ event => .ok (event.kind ∈ kinds)

def StatusAtLeast (code : ℤ) (passWhenMissing : Bool := true) : RecordFilter Env :=
  fun _ event =>
    match event.statusCode with
    | none => .ok passWhenMissing
    | some statusCode => .ok (code ≤ statusCode)

/-- `draw` is the random number that is read. -/
def Sampling (draw : Env → ℚ) (rate : ℚ) : RecordFilter Env :=
  fun env _ => .ok (draw env < max 0 (min 1 rate))

def Not (flt : RecordFilter Env) : RecordFilter Env := fun env event => do return !(← flt env event)

def AnyOf : List (RecordFilter Env) → RecordFilter Env
  | [], _, _ => .ok false
  | flt :: filters, env, event => do
    if ← flt env event then return true
    AnyOf filters env event

def ExcludeUrls (prefixes : List String) : RecordFilter Env := fun _ event =>
  match event.url with
  | none => .ok true
  | some url =>
    if url = "" then .ok true
    else .ok !(prefixes.any fun p => p.toList.isPrefixOf url.toList)

end Filters

/-! ## `composer.py` -/

/-- A writer, told from the others by number, and its filter. -/
structure Route (Env : Type) where
  writer : ℕ
  destination : RecordFilter Env

structure TelemetryComposer (Env : Type) where
  globalFilters : List (RecordFilter Env)
  routes : List (Route Env)

/-- A call of `writer.submit(event)`, with the number of the route it was made for. -/
structure Submission where
  route : ℕ
  writer : ℕ
  event : TelemetryEvent

/-- The loop over the routes from some number on. A filter that raises is logged and skipped. -/
def deliver (env : Env) (event : TelemetryEvent) : ℕ → List (Route Env) → List Submission
  | _, [] => []
  | i, route :: routes =>
    (match route.destination env event with
      | .ok true => [{ route := i, writer := route.writer, event }]
      | .ok false => []
      | .error _ => []) ++ deliver env event (i + 1) routes

/-- `dispatch`: what it raises and what it submits. -/
def TelemetryComposer.dispatch (composer : TelemetryComposer Env) (env : Env)
    (event : TelemetryEvent) : Except String Unit × List Submission :=
  if event.kind ≠ KIND_SYSTEM then
    match FilterPipeline composer.globalFilters env event with
    | .error exc => (.error exc, [])
    | .ok false => (.ok (), [])
    | .ok true => (.ok (), deliver env event 0 composer.routes)
  else (.ok (), deliver env event 0 composer.routes)

/-- What is submitted while some events are dispatched, each with what the filters read then. -/
def TelemetryComposer.dispatchAll (composer : TelemetryComposer Env)
    (calls : List (Env × TelemetryEvent)) : List Submission :=
  calls.flatMap fun call => (composer.dispatch call.1 call.2).2

/-! ## What the filters say -/

/-- The filter returned, and returned true. -/
def returnsTrue : Except String Bool → Bool
  | .ok b => b
  | .error _ => false

/-- A pipeline passes what all its filters pass. -/
theorem returnsTrue_pipeline (filters : List (RecordFilter Env)) (env : Env)
    (event : TelemetryEvent) :
    returnsTrue (FilterPipeline filters env event) =
      filters.all fun flt => returnsTrue (flt env event) := by
  induction filters with
  | nil => rfl
  | cons flt filters ih =>
    rw [FilterPipeline, List.all_cons, ← ih]
    cases flt env event with
    | error exc => rfl
    | ok b => cases b <;> rfl

/-- The event is the system's or every global filter passes it. -/
def TelemetryComposer.admits (composer : TelemetryComposer Env) (env : Env)
    (event : TelemetryEvent) : Bool :=
  event.kind = KIND_SYSTEM || composer.globalFilters.all fun flt => returnsTrue (flt env event)

theorem TelemetryComposer.dispatch_snd (composer : TelemetryComposer Env) (env : Env)
    (event : TelemetryEvent) :
    (composer.dispatch env event).2 =
      if composer.admits env event then deliver env event 0 composer.routes else [] := by
  unfold dispatch admits
  rw [← returnsTrue_pipeline]
  by_cases hkind : event.kind = KIND_SYSTEM
  · simp [hkind]
  · cases FilterPipeline composer.globalFilters env event with
    | error exc => simp [hkind, returnsTrue]
    | ok b => cases b <;> simp [hkind, returnsTrue]

/-! ## What a route submits -/

theorem deliver_cons (env : Env) (event : TelemetryEvent) (n : ℕ) (route : Route Env)
    (routes : List (Route Env)) :
    deliver env event n (route :: routes) =
      (if returnsTrue (route.destination env event) then
        [{ route := n, writer := route.writer, event }] else []) ++
        deliver env event (n + 1) routes := by
  rw [deliver]
  cases route.destination env event with
  | error exc => rfl
  | ok b => cases b <;> rfl

/-- Every submission is made for a route and its writer. -/
theorem mem_deliver {env : Env} {event : TelemetryEvent} {n : ℕ} {routes : List (Route Env)}
    {submission : Submission} (h : submission ∈ deliver env event n routes) :
    ∃ k, ∃ hk : k < routes.length,
      submission.route = n + k ∧ submission.writer = routes[k].writer := by
  induction routes generalizing n with
  | nil => exact absurd h List.not_mem_nil
  | cons route routes ih =>
    rw [deliver_cons, List.mem_append] at h
    rcases h with hhead | htail
    · split_ifs at hhead
      · obtain rfl := List.mem_singleton.mp hhead
        exact ⟨0, by simp, rfl, rfl⟩
      · exact absurd hhead List.not_mem_nil
    · obtain ⟨k, hk, hroute, hwriter⟩ := ih htail
      exact ⟨k + 1, by simpa using hk, by omega, hwriter⟩

/-- A route submits the event when its own filter returns true, whatever the others do. -/
theorem filter_deliver (env : Env) (event : TelemetryEvent) (n : ℕ) (routes : List (Route Env))
    (k : ℕ) (hk : k < routes.length) :
    (deliver env event n routes).filter (·.route = n + k) =
      if returnsTrue (routes[k].destination env event) then
        [{ route := n + k, writer := routes[k].writer, event }] else [] := by
  induction routes generalizing n k with
  | nil => exact absurd hk (Nat.not_lt_zero k)
  | cons route routes ih =>
    rw [deliver_cons, List.filter_append]
    cases k with
    | zero =>
      have hlater : (deliver env event (n + 1) routes).filter (·.route = n) = [] := by
        rw [List.filter_eq_nil_iff]
        intro submission hmem
        obtain ⟨k, -, hroute, -⟩ := mem_deliver hmem
        rw [decide_eq_true_eq, hroute]
        omega
      rw [Nat.add_zero, hlater, List.append_nil, List.getElem_cons_zero]
      split_ifs <;> simp
    | succ k =>
      have hhead : (if returnsTrue (route.destination env event) then
          [({ route := n, writer := route.writer, event } : Submission)] else []).filter
            (·.route = n + (k + 1)) = [] := by
        split_ifs <;> simp
      have hindex : n + (k + 1) = n + 1 + k := by omega
      rw [hhead, List.nil_append, hindex]
      exact ih (n + 1) k (Nat.lt_of_succ_lt_succ hk)

section

variable (composer : TelemetryComposer Env) (calls : List (Env × TelemetryEvent))

theorem TelemetryComposer.mem_dispatchAll {submission : Submission}
    (h : submission ∈ composer.dispatchAll calls) :
    ∃ k, ∃ hk : k < composer.routes.length,
      submission.route = k ∧ submission.writer = composer.routes[k].writer := by
  obtain ⟨call, -, hmem⟩ := List.mem_flatMap.mp h
  rw [dispatch_snd] at hmem
  split_ifs at hmem
  · simpa using mem_deliver hmem
  · exact absurd hmem List.not_mem_nil

/-- The submissions of a route are the calls whose event is admitted and passes its filter. -/
theorem TelemetryComposer.filter_dispatchAll (i : Fin composer.routes.length) :
    ((composer.dispatchAll calls).filter (·.route = i.val)).map (·.event) =
      (calls.filter fun call => composer.admits call.1 call.2 &&
        returnsTrue (composer.routes[i].destination call.1 call.2)).map Prod.snd := by
  induction calls with
  | nil => rfl
  | cons call calls ih =>
    have hcall : ((composer.dispatch call.1 call.2).2.filter (·.route = i.val)).map (·.event) =
        if composer.admits call.1 call.2 &&
          returnsTrue (composer.routes[i].destination call.1 call.2) then [call.2] else [] := by
      rw [dispatch_snd]
      by_cases hadmits : composer.admits call.1 call.2 = true
      · have hroute := filter_deliver call.1 call.2 0 composer.routes i i.isLt
        rw [Nat.zero_add] at hroute
        rw [if_pos hadmits, hroute, hadmits, Bool.true_and]
        cases returnsTrue (composer.routes[i].destination call.1 call.2) <;> rfl
      · rw [if_neg hadmits, Bool.eq_false_iff.mpr hadmits]
        rfl
    show ((((composer.dispatch call.1 call.2).2 ++ composer.dispatchAll calls).filter
      (·.route = i.val)).map (·.event)) = _
    rw [List.filter_append, List.map_append, hcall, ih, List.filter_cons]
    split_ifs <;> rfl

end

/-- **A route submits, in order, the events that are the system's or pass every global filter, and
on which its own filter returns true; so its writer receives these, where it is the writer of no
other route.** What the filters of the other routes return or raise does not occur. -/
theorem TelemetryComposer.route_receives (composer : TelemetryComposer Env)
    (calls : List (Env × TelemetryEvent)) (i : Fin composer.routes.length) :
    let route := composer.routes[i]
    let submissions := composer.dispatchAll calls
    let passed := (calls.filter fun call =>
      (call.2.kind = KIND_SYSTEM ||
        composer.globalFilters.all fun flt => returnsTrue (flt call.1 call.2)) &&
          returnsTrue (route.destination call.1 call.2)).map Prod.snd
    (submissions.filter (·.route = i.val)).map (·.event) = passed ∧
      ((∀ j : Fin composer.routes.length, composer.routes[j].writer = route.writer → j = i) →
        (submissions.filter (·.writer = route.writer)).map (·.event) = passed) := by
  intro route submissions passed
  have hroute : (submissions.filter (·.route = i.val)).map (·.event) = passed :=
    composer.filter_dispatchAll calls i
  refine ⟨hroute, fun hwriter => ?_⟩
  rw [← hroute]
  refine congrArg (List.map _) (List.filter_congr fun submission hmem => ?_)
  obtain ⟨k, hk, hindex, hname⟩ := composer.mem_dispatchAll calls hmem
  rw [hindex, hname, decide_eq_decide]
  constructor
  · exact fun h => congrArg Fin.val (hwriter ⟨k, hk⟩ h)
  · rintro rfl
    rfl

end ApiTemplate.Telemetry
