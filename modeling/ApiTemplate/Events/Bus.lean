import ApiTemplate.Collections.Dict
import ApiTemplate.Collections.StableSort
import ApiTemplate.TxStore.Issued
import Mathlib.Data.Int.Order.Basic

/-!
# The event bus

`InProcessEventBus` as programs over the calls that it makes of the code it was given: middlewares,
factories and handlers. What a call does is left to whoever runs the program.
-/

namespace ApiTemplate.Events

open TxStore TxStore.Program

/-- `BaseEvent`; `cls` is `event.__class__` and `data` what the class adds. -/
structure BaseEvent (κ α : Type) where
  cls : κ
  eventId : ℕ
  order : ℤ := 0
  data : α

/-- The call of a factory, of a handler or of a middleware. The call of a handler keeps the factory
that the handler comes from. -/
inductive Call (E F H P M : Type)
  | beforePublish (middleware : P) (event : E)
  | build (handlerF : F)
  | beforeHandler (middleware : M) (event : E) (handler : H)
  | handle (handlerF : F) (event : E) (handler : H)
  | afterHandler (middleware : M) (event : E) (handler : H)
  | afterPublish (middleware : P) (event : E)

/-- What a call returns. -/
@[reducible] def Call.Reply {E F H P M : Type} : Call E F H P M → Type
  | .build _ => H
  | _ => Unit

/-- `_handlers` keeps the factories that the wrappers in it are made of. -/
structure InProcessEventBus (κ F P M : Type) where
  handlers : List (κ × List F) := []
  publisherMiddlewares : List P := []
  handlerMiddlewares : List M := []

namespace InProcessEventBus

variable {κ α F H P M ε W : Type}

/-- A program of the bus. -/
abbrev Code (E F H P M ε α : Type) : Type := Program (Call E F H P M) Call.Reply ε α

/-- One call. -/
def call {E : Type} (c : Call E F H P M) : Code E F H P M ε c.Reply := lift c

/-- The two loops over the middlewares of handlers. -/
def beforeHandlers {E : Type} (middlewares : List M) (event : E) (handler : H) :
    Code E F H P M ε Unit :=
  forEach (fun m => call (.beforeHandler m event handler)) middlewares

def afterHandlers {E : Type} (middlewares : List M) (event : E) (handler : H) :
    Code E F H P M ε Unit :=
  forEach (fun m => call (.afterHandler m event handler)) middlewares

/-- `_wrap_handler_factory(handler_f)(event)` -/
def wrapHandlerFactory {E : Type} (bus : InProcessEventBus κ F P M) (handlerF : F) (event : E) :
    Code E F H P M ε Unit := do
  let handler : H ← call (.build handlerF)
  beforeHandlers bus.handlerMiddlewares event handler
  let _ : Unit ← call (.handle handlerF event handler)
  afterHandlers bus.handlerMiddlewares event handler

/-- What is called for a handler that is built. -/
def deliver {E : Type} (handlerF : F) (event : E) (handler : H) (before after : List M) :
    Code E F H P M ε Unit :=
  beforeHandlers before event handler >>= fun _ =>
    call (.handle handlerF event handler) >>= fun _ => afterHandlers after event handler

theorem wrapHandlerFactory_eq {E : Type} (bus : InProcessEventBus κ F P M) (handlerF : F)
    (event : E) :
    (bus.wrapHandlerFactory handlerF event : Code E F H P M ε Unit) =
      call (.build handlerF) >>= fun handler =>
        deliver handlerF event handler bus.handlerMiddlewares bus.handlerMiddlewares := rfl

variable [DecidableEq κ]

/-- `_handlers[event_t]` of a `defaultdict(list)`; the empty list that a first reading leaves there
reads the same. -/
def handlersOf (bus : InProcessEventBus κ F P M) (eventT : κ) : List F :=
  (Dict.get? bus.handlers eventT).getD []

def subscribe (bus : InProcessEventBus κ F P M) (eventT : κ) (handlerF : F) :
    InProcessEventBus κ F P M :=
  { bus with handlers := Dict.setItem bus.handlers eventT (bus.handlersOf eventT ++ [handlerF]) }

def publish (bus : InProcessEventBus κ F P M) (event : BaseEvent κ α) :
    Code (BaseEvent κ α) F H P M ε Unit := do
  forEach (fun m => call (.beforePublish m event)) bus.publisherMiddlewares
  forEach (fun handlerF => bus.wrapHandlerFactory handlerF event) (bus.handlersOf event.cls)
  forEach (fun m => call (.afterPublish m event)) bus.publisherMiddlewares

def publishMany (bus : InProcessEventBus κ F P M) (events : List (BaseEvent κ α)) :
    Code (BaseEvent κ α) F H P M ε Unit :=
  if events.isEmpty then pure ()
  else forEach bus.publish (StableSort.sorted BaseEvent.order events)

end InProcessEventBus

end ApiTemplate.Events
