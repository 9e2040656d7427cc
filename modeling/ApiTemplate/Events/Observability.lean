import ApiTemplate.Events.Bus

/-!
# Hooks around handlers

`ObservabilityEventHandlerMiddleware` on the bus, with handlers and other middlewares that may
themselves publish: when every `before_handler` is followed by its `after_handler`, and what that
leaves in the registries.
-/

namespace ApiTemplate.Events

open TxStore TxStore.Program InProcessEventBus

variable {κ α F H P N M ε τ V W E : Type}

/-! ## The code that the bus calls -/

/-- A call of `publish` or of `publish_many`. -/
inductive Publication (E : Type)
  | one (event : E)
  | many (events : List E)

/-- What such code does: it publishes, or changes what else there is. -/
inductive Act (E V : Type)
  | publish (publication : Publication E)
  | other (f : V → V)

@[reducible] def Act.Reply {E V : Type} : Act E V → Type
  | .other _ => V
  | _ => Unit

/-- A middleware of handlers; an `ObservabilityEventHandlerMiddleware` is told by its number. -/
inductive HandlerMiddleware (N : Type)
  | observability (self : ℕ)
  | other (middleware : N)

/-- The code of factories, handlers and middlewares. `logBefore` and `logAfter` are what follows the
registry in the hooks of an `ObservabilityEventHandlerMiddleware`. -/
structure Given (E F H P N ε τ V : Type) where
  build : F → Program (Act E V) Act.Reply ε H
  handle : H → E → Program (Act E V) Act.Reply ε Unit
  beforePublish : P → E → Program (Act E V) Act.Reply ε Unit
  afterPublish : P → E → Program (Act E V) Act.Reply ε Unit
  beforeHandler : N → E → H → Program (Act E V) Act.Reply ε Unit
  afterHandler : N → E → H → Program (Act E V) Act.Reply ε Unit
  logBefore : E → Program (Act E V) Act.Reply ε Unit
  logAfter : E → Option τ → Program (Act E V) Act.Reply ε Unit
  perfCounter : V → τ
  id : H → ℕ
  recursionError : ε

/-- The registries, the rest of the world, and the calls of a handler or of a hook of one that have
raised. -/
structure State (E F H P M τ V : Type) where
  registry : ℕ → List ((ℕ × ℕ) × τ)
  world : V
  raised : List (Call E F H P M) := []

/-- The call is of a handler or of a hook of one. -/
def Call.isGuarded : Call E F H P M → Bool
  | .beforeHandler .. => true
  | .handle .. => true
  | .afterHandler .. => true
  | _ => false

/-- Change one registry. -/
def State.update (st : State E F H P M τ V) (self : ℕ)
    (f : List ((ℕ × ℕ) × τ) → List ((ℕ × ℕ) × τ)) : State E F H P M τ V :=
  { st with registry := fun i => if i = self then f (st.registry i) else st.registry i }

/-- The state of a bus with such middlewares, and its calls. -/
abbrev BusState (κ α F H P N τ V : Type) : Type :=
  State (BaseEvent κ α) F H P (HandlerMiddleware N) τ V

abbrev BusCall (κ α F H P N : Type) : Type := Call (BaseEvent κ α) F H P (HandlerMiddleware N)

/-- How statements are executed. -/
abbrev Exec (S : Type) (R : S → Type) (ε W : Type) : Type := (s : S) → W → Except ε (R s) × W

theorem State.registry_update_self (st : State E F H P M τ V) (self : ℕ)
    (f : List ((ℕ × ℕ) × τ) → List ((ℕ × ℕ) × τ)) :
    (st.update self f).registry self = f (st.registry self) := if_pos rfl

theorem State.registry_update_of_ne (st : State E F H P M τ V) {self i : ℕ}
    (f : List ((ℕ × ℕ) × τ) → List ((ℕ × ℕ) × τ)) (h : i ≠ self) :
    (st.update self f).registry i = st.registry i := if_neg h

section Run

variable [Sub τ] (given : Given (BaseEvent κ α) F H P N ε τ V)

/-- How one call runs, where `act` is how what its code does runs. -/
def perform (act : Exec (Act (BaseEvent κ α) V) Act.Reply ε (BusState κ α F H P N τ V)) :
    Exec (BusCall κ α F H P N) Call.Reply ε (BusState κ α F H P N τ V)
  | .build handlerF, st => (given.build handlerF).run act st
  | .handle _ event handler, st => (given.handle handler event).run act st
  | .beforePublish middleware event, st => (given.beforePublish middleware event).run act st
  | .afterPublish middleware event, st => (given.afterPublish middleware event).run act st
  | .beforeHandler (.other middleware) event handler, st =>
    (given.beforeHandler middleware event handler).run act st
  | .afterHandler (.other middleware) event handler, st =>
    (given.afterHandler middleware event handler).run act st
  | .beforeHandler (.observability self) event handler, st =>
    (given.logBefore event).run act (st.update self fun registry =>
      Dict.setItem registry (event.eventId, given.id handler) (given.perfCounter st.world))
  | .afterHandler (.observability self) event handler, st =>
    let started := Dict.get? (st.registry self) (event.eventId, given.id handler)
    (given.logAfter event (started.map fun t => given.perfCounter st.world - t)).run act
      (st.update self fun registry => Dict.pop registry (event.eventId, given.id handler))

/-- One call, noting that it raised. -/
def exec (act : Exec (Act (BaseEvent κ α) V) Act.Reply ε (BusState κ α F H P N τ V)) :
    Exec (BusCall κ α F H P N) Call.Reply ε (BusState κ α F H P N τ V) := fun c st =>
  match perform given act c st with
  | (.ok r, st') => (.ok r, st')
  | (.error e, st') =>
    (.error e, if c.isGuarded then { st' with raised := c :: st'.raised } else st')

variable [DecidableEq κ] (bus : InProcessEventBus κ F P (HandlerMiddleware N))

def Publication.code : Publication (BaseEvent κ α) →
    InProcessEventBus.Code (BaseEvent κ α) F H P (HandlerMiddleware N) ε Unit
  | .one event => bus.publish event
  | .many events => bus.publishMany events

/-- What such code does, where `nested` is how a publication inside of it runs. -/
def act (nested : Publication (BaseEvent κ α) → BusState κ α F H P N τ V →
      Except ε Unit × BusState κ α F H P N τ V) :
    Exec (Act (BaseEvent κ α) V) Act.Reply ε (BusState κ α F H P N τ V)
  | .publish publication, st => nested publication st
  | .other f, st => (.ok (f st.world), { st with world := f st.world })

/-- One call, where publications inside of each other are limited in depth. -/
def execAt : ℕ → Exec (BusCall κ α F H P N) Call.Reply ε (BusState κ α F H P N τ V)
  | 0 => exec given (act fun _ st => (.error given.recursionError, st))
  | limit + 1 => exec given (act fun publication st =>
      (publication.code bus).run (execAt limit) st)

/-- Publications one after the other, whether or not they raise. -/
def publishAll (limit : ℕ) :
    List (Publication (BaseEvent κ α)) → BusState κ α F H P N τ V → BusState κ α F H P N τ V
  | [], st => st
  | publication :: publications, st =>
    publishAll limit publications ((publication.code bus).run (execAt given bus limit) st).2

end Run

/-! ## What calls do to the registries -/

/-- The registry of a middleware has an entry. -/
def State.Has (st : State E F H P M τ V) (self : ℕ) (key : ℕ × ℕ) : Prop :=
  Dict.get? (st.registry self) key ≠ none

/-- If no guarded call has raised in the end, none had before, and there is no new entry. -/
def State.Settles (st st' : State E F H P M τ V) : Prop :=
  st'.raised = [] → st.raised = [] ∧ ∀ self key, st'.Has self key → st.Has self key

theorem State.Settles.refl (st : State E F H P M τ V) : st.Settles st :=
  fun h => ⟨h, fun _ _ hkey => hkey⟩

theorem State.Settles.trans {st st' st'' : State E F H P M τ V} (h : st.Settles st')
    (h' : st'.Settles st'') : st.Settles st'' := fun hend =>
  ⟨(h (h' hend).1).1, fun self key hkey =>
    (h (h' hend).1).2 self key ((h' hend).2 self key hkey)⟩

theorem run_settles {S : Type} {R : S → Type} {act : Exec S R ε (State E F H P M τ V)}
    (hact : ∀ a st, State.Settles st (act a st).2) (p : Program S R ε α)
    (st : State E F H P M τ V) : st.Settles (p.run act st).2 :=
  run_rel State.Settles.refl State.Settles.trans hact p st

section Calls

variable [Sub τ] {given : Given (BaseEvent κ α) F H P N ε τ V}
  {act : Exec (Act (BaseEvent κ α) V) Act.Reply ε (BusState κ α F H P N τ V)}

/-- Where no guarded call has raised in the end, the state is that of the call, and a guarded call
has returned. -/
theorem exec_of_raised {c : BusCall κ α F H P N} {st : BusState κ α F H P N τ V}
    (h : (exec given act c st).2.raised = []) :
    (exec given act c st).2 = (perform given act c st).2 ∧
      (c.isGuarded = true → ∃ r, (exec given act c st).1 = .ok r) := by
  unfold exec at h ⊢
  generalize perform given act c st = o at h ⊢
  obtain ⟨e | r, st'⟩ := o
  · dsimp only at h ⊢
    split_ifs at h ⊢ with hguarded
    exact ⟨rfl, fun h => absurd h hguarded⟩
  · exact ⟨rfl, fun _ => ⟨r, rfl⟩⟩

/-- No guarded call has raised. -/
def State.Calm (st : State E F H P M τ V) : Prop := st.raised = []

/-- No entry is new but that of the key, in registries of these middlewares. -/
def State.Adds (key : ℕ × ℕ) (middlewares : List (HandlerMiddleware N))
    (st st' : BusState κ α F H P N τ V) : Prop :=
  ∀ self key', st'.Has self key' → st.Has self key' ∨ key' = key ∧ .observability self ∈ middlewares

/-- No entry is new, and the key is in no registry of these middlewares. -/
def State.Drops (key : ℕ × ℕ) (middlewares : List (HandlerMiddleware N))
    (st st' : BusState κ α F H P N τ V) : Prop :=
  ∀ self key', st'.Has self key' → st.Has self key' ∧
    ¬(key' = key ∧ .observability self ∈ middlewares)

/-- A guarded call that leaves no exception leaves the state `next`. -/
theorem guarded_within {p : Code (BaseEvent κ α) F H P (HandlerMiddleware N) ε Unit}
    {Q : BusState κ α F H P N τ V → BusState κ α F H P N τ V → Prop}
    (next : BusState κ α F H P N τ V → BusState κ α F H P N τ V)
    (hexec : ∀ st, (p.run (exec given act) st).2.raised = [] →
      (p.run (exec given act) st).2 = next st ∧ ∃ r, (p.run (exec given act) st).1 = .ok r)
    (hnext : ∀ st, (next st).raised = [] → st.raised = [] ∧ Q st (next st)) :
    p.Within (exec given act) State.Calm Q := by
  intro st h
  obtain ⟨hstate, _, hok⟩ := hexec st h
  rw [State.Calm, hstate] at h
  rw [hstate]
  exact ⟨(hnext st h).1, hok, (hnext st h).2⟩

variable (hact : ∀ a st, State.Settles st (act a st).2)

include hact

/-- A `before_handler` adds no entry but its own. -/
theorem beforeHandler_within (event : BaseEvent κ α) (handler : H)
    (middleware : HandlerMiddleware N) :
    (call (.beforeHandler middleware event handler) :
      Code (BaseEvent κ α) F H P (HandlerMiddleware N) ε Unit).Within (exec given act) State.Calm
        (State.Adds (event.eventId, given.id handler) [middleware]) := by
  refine guarded_within
    (fun st => (perform given act (.beforeHandler middleware event handler) st).2)
    (fun st h => ⟨(exec_of_raised h).1, (exec_of_raised h).2 rfl⟩) fun st h => ?_
  cases middleware with
  | other middleware =>
    have hsettles := run_settles hact (given.beforeHandler middleware event handler) st h
    exact ⟨hsettles.1, fun self key hkey => .inl (hsettles.2 self key hkey)⟩
  | observability i =>
    obtain ⟨hraised, hkeys⟩ := run_settles hact (given.logBefore event) _ h
    refine ⟨hraised, fun self key hkey => ?_⟩
    have hset := hkeys self key hkey
    by_cases hself : self = i
    · subst hself
      by_cases hown : key = (event.eventId, given.id handler)
      · exact .inr ⟨hown, List.mem_cons_self⟩
      · rw [State.Has, State.registry_update_self, Dict.get?_setItem_of_ne _ _ hown] at hset
        exact .inl hset
    · rw [State.Has, State.registry_update_of_ne _ _ hself] at hset
      exact .inl hset

/-- An `after_handler` adds no entry and leaves its own out. -/
theorem afterHandler_within (event : BaseEvent κ α) (handler : H)
    (middleware : HandlerMiddleware N) :
    (call (.afterHandler middleware event handler) :
      Code (BaseEvent κ α) F H P (HandlerMiddleware N) ε Unit).Within (exec given act) State.Calm
        (State.Drops (event.eventId, given.id handler) [middleware]) := by
  refine guarded_within
    (fun st => (perform given act (.afterHandler middleware event handler) st).2)
    (fun st h => ⟨(exec_of_raised h).1, (exec_of_raised h).2 rfl⟩) fun st h => ?_
  cases middleware with
  | other middleware =>
    have hsettles := run_settles hact (given.afterHandler middleware event handler) st h
    exact ⟨hsettles.1, fun self key hkey => ⟨hsettles.2 self key hkey, fun hown => by
      cases List.mem_singleton.mp hown.2⟩⟩
  | observability i =>
    obtain ⟨hraised, hkeys⟩ := run_settles hact (given.logAfter event _) _ h
    refine ⟨hraised, fun self key hkey => ?_⟩
    have hpop := hkeys self key hkey
    by_cases hself : self = i
    · subst hself
      rw [State.Has, State.registry_update_self] at hpop
      by_cases hown : key = (event.eventId, given.id handler)
      · rw [hown, Dict.get?_pop_self] at hpop
        exact absurd rfl hpop
      · rw [Dict.get?_pop_of_ne _ hown] at hpop
        exact ⟨hpop, fun h => hown h.1⟩
    · rw [State.Has, State.registry_update_of_ne _ _ hself] at hpop
      refine ⟨hpop, fun h => hself ?_⟩
      cases List.mem_singleton.mp h.2
      rfl

theorem beforeHandlers_within (event : BaseEvent κ α) (handler : H)
    (middlewares : List (HandlerMiddleware N)) :
    (beforeHandlers middlewares event handler :
      Code (BaseEvent κ α) F H P (HandlerMiddleware N) ε Unit).Within (exec given act) State.Calm
        (State.Adds (event.eventId, given.id handler) middlewares) := by
  refine Within.forEach (T := State.Adds _) (beforeHandler_within hact event handler)
    (fun _ _ _ => .inl) ?_ middlewares
  intro m ms st st' st'' hfirst hrest self key hkey
  rcases hrest self key hkey with hkey | ⟨hown, hmem⟩
  · rcases hfirst self key hkey with hkey | ⟨hown, hmem⟩
    · exact .inl hkey
    · exact .inr ⟨hown, List.mem_cons.mpr (.inl (List.mem_singleton.mp hmem))⟩
  · exact .inr ⟨hown, List.mem_cons_of_mem _ hmem⟩

theorem afterHandlers_within (event : BaseEvent κ α) (handler : H)
    (middlewares : List (HandlerMiddleware N)) :
    (afterHandlers middlewares event handler :
      Code (BaseEvent κ α) F H P (HandlerMiddleware N) ε Unit).Within (exec given act) State.Calm
        (State.Drops (event.eventId, given.id handler) middlewares) := by
  refine Within.forEach (T := State.Drops _) (afterHandler_within hact event handler)
    (fun _ _ _ hkey => ⟨hkey, fun h => List.not_mem_nil h.2⟩) ?_ middlewares
  intro m ms st st' st'' hfirst hrest self key hkey
  obtain ⟨hkey, hlater⟩ := hrest self key hkey
  obtain ⟨hkey, hnow⟩ := hfirst self key hkey
  refine ⟨hkey, fun ⟨hown, hmem⟩ => ?_⟩
  rcases List.mem_cons.mp hmem with hm | hmem
  · exact hnow ⟨hown, List.mem_singleton.mpr hm⟩
  · exact hlater ⟨hown, hmem⟩

/-- A handler's own call adds no entry. -/
theorem handle_within (handlerF : F) (event : BaseEvent κ α) (handler : H) :
    (call (.handle handlerF event handler) :
      Code (BaseEvent κ α) F H P (HandlerMiddleware N) ε Unit).Within (exec given act) State.Calm
        fun st st' => ∀ self key, st'.Has self key → st.Has self key := by
  exact guarded_within (fun st => (perform given act (.handle handlerF event handler) st).2)
    (fun st h => ⟨(exec_of_raised h).1, (exec_of_raised h).2 rfl⟩)
    fun st h => run_settles hact (given.handle handler event) st h

/-- A call outside of a delivery adds no entry. -/
theorem exec_settles {c : BusCall κ α F H P N} (hc : c.isGuarded = false)
    (st : BusState κ α F H P N τ V) : st.Settles (exec given act c st).2 := by
  intro h
  have heq := (exec_of_raised h).1
  rw [heq] at h ⊢
  cases c with
  | build handlerF => exact run_settles hact (given.build handlerF) st h
  | beforePublish middleware event =>
    exact run_settles hact (given.beforePublish middleware event) st h
  | afterPublish middleware event =>
    exact run_settles hact (given.afterPublish middleware event) st h
  | beforeHandler => cases hc
  | handle => cases hc
  | afterHandler => cases hc

/-- A delivery adds no entry. -/
theorem wrapHandlerFactory_settles {bus : InProcessEventBus κ F P (HandlerMiddleware N)}
    (handlerF : F) (event : BaseEvent κ α) (st : BusState κ α F H P N τ V) :
    st.Settles ((bus.wrapHandlerFactory handlerF event).run (exec given act) st).2 := by
  have hrest (handler : H) : (deliver handlerF event handler bus.handlerMiddlewares
      bus.handlerMiddlewares).Within (exec given act) State.Calm _ :=
    (beforeHandlers_within hact event handler bus.handlerMiddlewares).bind
      ((handle_within hact handlerF event handler).bind
        (afterHandlers_within hact event handler bus.handlerMiddlewares))
  refine run_rel_bind (r := State.Settles) State.Settles.trans (fun st => ?_)
    (fun handler st h => ?_) st
  · exact exec_settles hact rfl st
  obtain ⟨hcalm, -, st₁, hadds, st₂, hkeeps, hdrops⟩ := hrest handler st h
  refine ⟨hcalm, fun self key hkey => ?_⟩
  obtain ⟨hkey, hnot⟩ := hdrops self key hkey
  exact (hadds self key (hkeeps self key hkey)).resolve_right hnot

variable [DecidableEq κ]

theorem publication_settles {bus : InProcessEventBus κ F P (HandlerMiddleware N)}
    (publication : Publication (BaseEvent κ α)) (st : BusState κ α F H P N τ V) :
    st.Settles ((publication.code bus).run (exec given act) st).2 := by
  have hpublish (event : BaseEvent κ α) (st : BusState κ α F H P N τ V) :
      st.Settles ((bus.publish event).run (exec given act) st).2 := by
    refine run_rel_bind (r := State.Settles) State.Settles.trans
      (fun st => run_rel_forEach State.Settles.refl State.Settles.trans (fun m st => ?_) _ st)
      (fun _ => run_rel_bind (r := State.Settles) State.Settles.trans
        (fun st => run_rel_forEach State.Settles.refl State.Settles.trans
          (fun handlerF st => ?_) _ st)
        fun _ st => run_rel_forEach State.Settles.refl State.Settles.trans (fun m st => ?_) _ st) st
    · exact exec_settles hact rfl st
    · exact wrapHandlerFactory_settles hact handlerF event st
    · exact exec_settles hact rfl st
  cases publication with
  | one event => exact hpublish event st
  | many events =>
    show st.Settles ((bus.publishMany events).run (exec given act) st).2
    unfold publishMany
    split
    · exact State.Settles.refl st
    · exact run_rel_forEach State.Settles.refl State.Settles.trans hpublish _ st

end Calls

/-! ## Every depth -/

section Depth

theorem act_settles
    {nested : Publication (BaseEvent κ α) → BusState κ α F H P N τ V →
      Except ε Unit × BusState κ α F H P N τ V}
    (h : ∀ publication st, State.Settles st (nested publication st).2)
    (a : Act (BaseEvent κ α) V) (st : BusState κ α F H P N τ V) :
    st.Settles (Events.act nested a st).2 := by
  cases a with
  | publish publication => exact h publication st
  | other f => exact State.Settles.refl _

variable [Sub τ] [DecidableEq κ] (given : Given (BaseEvent κ α) F H P N ε τ V)
  (bus : InProcessEventBus κ F P (HandlerMiddleware N))

theorem publication_settles_at (limit : ℕ) (publication : Publication (BaseEvent κ α))
    (st : BusState κ α F H P N τ V) :
    st.Settles ((publication.code bus).run (execAt given bus limit) st).2 := by
  induction limit generalizing publication st with
  | zero => exact publication_settles (act_settles fun _ => State.Settles.refl) publication st
  | succ limit ih => exact publication_settles (act_settles ih) publication st

theorem publishAll_settles (limit : ℕ) (publications : List (Publication (BaseEvent κ α)))
    (st : BusState κ α F H P N τ V) : st.Settles (publishAll given bus limit publications st) := by
  induction publications generalizing st with
  | nil => exact State.Settles.refl st
  | cons publication publications ih =>
    exact (publication_settles_at given bus limit publication st).trans (ih _)

end Depth

/-! ## One delivery -/

section Delivery

variable {exec : Exec (Call E F H P M) Call.Reply ε W}

/-- A call of a hook of a handler; `true` is for `after_handler`. -/
def hook : Call E F H P M → Option (Bool × M × E × H)
  | .beforeHandler middleware event handler => some (false, middleware, event, handler)
  | .afterHandler middleware event handler => some (true, middleware, event, handler)
  | _ => none

def hooks (after : Bool) (event : E) (handler : H) (middlewares : List M) :
    List (Bool × M × E × H) :=
  middlewares.map fun m => (after, m, event, handler)

/-- Each `before_handler` of a delivery is followed by exactly one `after_handler`. -/
def Paired (event : E) (trace : List (Issued (Call E F H P M) Call.Reply ε)) : Prop :=
  (trace.filterMap fun i => hook i.statement) = [] ∨
    ∃ handler called, (trace.filterMap fun i => hook i.statement) =
      hooks false event handler called ++ hooks true event handler called

/-- There are no middlewares, or no handler is built, or the `before_handler` calls, the handler and
the `after_handler` calls but the last return. -/
def Completes (exec : Exec (Call E F H P M) Call.Reply ε W) (bus : InProcessEventBus κ F P M)
    (handlerF : F) (event : E) (w : W) : Prop :=
  bus.handlerMiddlewares = [] ∨
    match exec (.build handlerF) w with
    | (.error _, _) => True
    | (.ok handler, w') =>
      ((beforeHandlers bus.handlerMiddlewares event handler >>= fun _ =>
        (call (.handle handlerF event handler) : Code E F H P M ε Unit) >>= fun _ =>
          afterHandlers bus.handlerMiddlewares.dropLast event handler).run exec w').1 = .ok ()

theorem issues_beforeHandlers (event : E) (handler : H) (middlewares : List M) :
    (beforeHandlers middlewares event handler : Code E F H P M ε Unit).Issues hook
      (hooks false event handler middlewares) := by
  rw [hooks, List.map_eq_flatMap]
  exact Issues.forEach (fun m => Issues.lift _) middlewares

theorem issues_afterHandlers (event : E) (handler : H) (middlewares : List M) :
    (afterHandlers middlewares event handler : Code E F H P M ε Unit).Issues hook
      (hooks true event handler middlewares) := by
  rw [hooks, List.map_eq_flatMap]
  exact Issues.forEach (fun m => Issues.lift _) middlewares

/-- A part of the calls that is cut off before the last `after_handler` pairs nothing. -/
theorem eq_nil_of_prefix {event : E} {handler handler' : H} {middlewares init called : List M}
    (hlt : init.length < middlewares.length)
    (h : hooks false event handler' called ++ hooks true event handler' called <+:
      hooks false event handler middlewares ++ hooks true event handler init) : called = [] := by
  have hflags (after : Bool) (handler : H) (ms : List M) :
      (hooks after event handler ms).map Prod.fst = List.replicate ms.length after := by
    rw [hooks, List.map_map]
    exact List.map_const' ..
  obtain ⟨rest, hrest⟩ := h.map Prod.fst
  simp only [List.map_append, hflags] at hrest
  have hcount : called.length ≤ init.length := by
    have h := congrArg (List.count true) hrest
    simp [List.count_replicate] at h
    omega
  by_contra hcalled
  have hpos : 0 < called.length := List.length_pos_iff.mpr hcalled
  have hbefore : called.length < middlewares.length := Nat.lt_of_le_of_lt hcount hlt
  -- the first `after_handler` stands where the longer list has a `before_handler`
  have hat := congrArg (fun flags => flags[called.length]?) hrest
  simp [List.getElem?_append, hpos, hbefore] at hat

theorem deliver_concat (handlerF : F) (event : E) (handler : H) (before init : List M) (last : M) :
    (deliver handlerF event handler before (init ++ [last]) : Code E F H P M ε Unit) =
      deliver handlerF event handler before init >>= fun _ =>
        afterHandlers [last] event handler := by
  unfold deliver
  rw [bind_assoc]
  refine congrArg _ (funext fun _ => ?_)
  rw [bind_assoc]
  exact congrArg _ (funext fun _ => forEach_append _ init [last])

theorem issues_deliver (handlerF : F) (event : E) (handler : H) (before after : List M) :
    (deliver handlerF event handler before after : Code E F H P M ε Unit).Issues hook
      (hooks false event handler before ++ hooks true event handler after) :=
  (issues_beforeHandlers event handler _).bind fun _ =>
    (Issues.lift _).bind fun _ => issues_afterHandlers event handler _

variable (exec) in
/-- The first `before_handler` is called in any case. -/
theorem issued_deliver_ne_nil (handlerF : F) (event : E) (handler : H) {before : List M}
    (hne : before ≠ []) (after : List M) (w : W) :
    ((deliver handlerF event handler before after).issued exec w).filterMap
      (fun i => hook i.statement) ≠ [] := by
  obtain ⟨m, ms, rfl⟩ := List.exists_cons_of_ne_nil hne
  rw [deliver, beforeHandlers, forEach, bind_assoc, issued_bind, List.filterMap_append]
  exact List.cons_ne_nil _ _

theorem issued_afterHandlers_singleton (event : E) (handler : H) (m : M) (w : W) :
    ((afterHandlers [m] event handler : Code E F H P M ε Unit).issued exec w).filterMap
      (fun i => hook i.statement) = [(true, m, event, handler)] := by
  rw [afterHandlers, forEach, issued_bind, List.filterMap_append]
  refine congrArg (_ :: ·) ?_
  generalize run exec (call (Call.afterHandler m event handler)) w = o
  obtain ⟨_ | _, _⟩ := o
  · rfl
  · rfl

/-- The calls for a handler that is built, with a last middleware. -/
theorem paired_deliver_iff (handlerF : F) (event : E) (handler : H) (init : List M) (last : M)
    (w : W) :
    Paired event ((deliver handlerF event handler (init ++ [last]) (init ++ [last])).issued exec w) ↔
      ((deliver handlerF event handler (init ++ [last]) init).run exec w).1 = .ok () := by
  have hbegins := issued_deliver_ne_nil exec handlerF event handler
    (List.concat_ne_nil last init) init w
  have hearly : (∃ a, ((deliver handlerF event handler (init ++ [last]) init).run exec w).1 =
      .ok a) ∧ _ ∨ _ := (issues_deliver handlerF event handler (init ++ [last]) init).run w
  rw [deliver_concat, issued_bind, Paired, List.filterMap_append]
  generalize (deliver handlerF event handler (init ++ [last]) init).run exec w = o at hearly ⊢
  obtain ⟨r, w'⟩ := o
  rcases hearly with ⟨⟨_, hok⟩, hplan, -⟩ | ⟨hstart, e, c, herror, -⟩
  · obtain rfl : r = .ok () := hok
    refine iff_of_true (.inr ⟨handler, init ++ [last], ?_⟩) rfl
    have hlast : hooks true event handler (init ++ [last]) =
        hooks true event handler init ++ [(true, last, event, handler)] := List.map_append
    rw [hplan, hlast, ← List.append_assoc]
    exact congrArg _ (issued_afterHandlers_singleton event handler last w')
  · obtain rfl : r = .error e := herror
    refine iff_of_false ?_ fun hok => by cases hok
    rintro (hnone | ⟨handler', called, heq⟩)
    · exact hbegins (List.append_eq_nil_iff.mp hnone).1
    · rw [List.filterMap_nil, List.append_nil] at heq
      rw [heq] at hstart hbegins
      have hnil := eq_nil_of_prefix (by simp) hstart
      rw [hnil] at hbegins
      exact hbegins rfl

/-- The hooks of a delivery are paired exactly when it completes. -/
theorem paired_iff (bus : InProcessEventBus κ F P M) (handlerF : F) (event : E) (w : W) :
    Paired event ((bus.wrapHandlerFactory handlerF event).issued exec w) ↔
      Completes exec bus handlerF event w := by
  rw [wrapHandlerFactory_eq]
  unfold Completes
  have hrun : (call (.build handlerF) : Code E F H P M ε H).run exec w = exec (.build handlerF) w := rfl
  have hissued : (call (.build handlerF) : Code E F H P M ε H).issued exec w =
      [⟨.build handlerF, (exec (.build handlerF) w).1⟩] := rfl
  rw [issued_bind, hissued, hrun]
  generalize exec (.build handlerF) w = o
  obtain ⟨e | handler, w'⟩ := o
  · exact iff_of_true (.inl rfl) (.inr trivial)
  rcases bus.handlerMiddlewares.eq_nil_or_concat' with hnone | ⟨init, last, hms⟩
  · rw [hnone]
    refine iff_of_true (.inl ?_) (.inl rfl)
    refine (additive_filterMap fun i => hook i.statement).bind (fun w => rfl) (fun _ => ?_) w'
    exact (additive_filterMap fun i => hook i.statement).bind (fun w => rfl) fun _ _ => rfl
  · rw [hms, List.dropLast_concat]
    refine (paired_deliver_iff handlerF event handler init last w').trans ?_
    exact (or_iff_right (by simp)).symm

end Delivery

/-! ## Registries -/

theorem eq_nil_of_not_has {st : State E F H P M τ V} {self : ℕ} (h : ∀ key, ¬st.Has self key) :
    st.registry self = [] :=
  Dict.eq_nil_of_get? fun key => not_not.mp (h key)

/-- **In a delivery each `before_handler` is followed by its `after_handler` exactly when the hooks
before, the handler and the hooks after it but the last return; and if in a run no handler and no
hook of one raises, however publications are nested, no registry keeps an entry.** -/
theorem after_handler_called [Sub τ] [DecidableEq κ] :
    (∀ (exec : Exec (Call E F H P M) Call.Reply ε W) (bus : InProcessEventBus κ F P M)
        (handlerF : F) (event : E) (w : W),
      Paired event ((bus.wrapHandlerFactory handlerF event).issued exec w) ↔
        Completes exec bus handlerF event w) ∧
      ∀ (given : Given (BaseEvent κ α) F H P N ε τ V)
        (bus : InProcessEventBus κ F P (HandlerMiddleware N)) (limit : ℕ)
        (publications : List (Publication (BaseEvent κ α))) (st : BusState κ α F H P N τ V),
        (∀ self, st.registry self = []) →
          (publishAll given bus limit publications st).raised = [] →
            ∀ self, (publishAll given bus limit publications st).registry self = [] := by
  refine ⟨fun exec bus handlerF event w => paired_iff bus handlerF event w, ?_⟩
  intro given bus limit publications st hempty hraised self
  obtain ⟨-, hkeys⟩ := publishAll_settles given bus limit publications st hraised
  refine eq_nil_of_not_has fun key hkey => hkeys self key hkey ?_
  rw [hempty self]
  rfl

/-! ## A handler that raises -/

/-- A bus with one handler of one kind of event, observed. -/
def observedBus : InProcessEventBus Unit Unit Empty (HandlerMiddleware Empty) :=
  ({ handlerMiddlewares := [.observability 0] } : InProcessEventBus ..).subscribe () ()

/-- The handler cannot send its mail. -/
def failingMail : Given (BaseEvent Unit Unit) Unit Unit Empty Empty String ℕ Unit where
  build _ := pure ()
  handle _ _ := .raise "mail"
  beforePublish := nofun
  afterPublish := nofun
  beforeHandler := nofun
  afterHandler := nofun
  logBefore _ := pure ()
  logAfter _ _ := pure ()
  perfCounter _ := 0
  id _ := 1
  recursionError := "recursion"

/-- The publication raises, `after_handler` is not called and the entry stays. -/
theorem not_after_handler_called :
    let event : BaseEvent Unit Unit := { cls := (), eventId := 7, data := () }
    let st : BusState Unit Unit Unit Unit Empty Empty ℕ Unit :=
      { registry := fun _ => [], world := () }
    ¬Paired event ((observedBus.wrapHandlerFactory () event).issued
        (execAt failingMail observedBus 0) st) ∧
      (publishAll failingMail observedBus 0 [.one event] st).registry 0 = [((7, 1), 0)] := by
  refine ⟨?_, rfl⟩
  rintro (hnone | ⟨handler, called, heq⟩)
  · exact absurd hnone (List.cons_ne_nil _ _)
  · have hlength : 1 = (hooks false _ handler called ++ hooks true _ handler called).length :=
      congrArg List.length heq
    rw [List.length_append, hooks, hooks, List.length_map, List.length_map] at hlength
    omega

end ApiTemplate.Events
