import ApiTemplate.Events.Bus

/-!
# Deliveries

Which handlers `publish_many` runs, for which events and in which order, after any history of
subscriptions, whatever the middlewares, factories and handlers do.
-/

namespace ApiTemplate.Events

open TxStore TxStore.Program

variable {κ α F H P M ε W : Type} [DecidableEq κ]

/-! ## Subscriptions -/

namespace InProcessEventBus

/-- The bus after a history of subscriptions. -/
def subscribed (publisherMiddlewares : List P) (handlerMiddlewares : List M)
    (history : List (κ × F)) : InProcessEventBus κ F P M :=
  history.foldl (fun bus s => bus.subscribe s.1 s.2) { publisherMiddlewares, handlerMiddlewares }

theorem handlersOf_subscribe (bus : InProcessEventBus κ F P M) (eventT cls : κ) (handlerF : F) :
    (bus.subscribe eventT handlerF).handlersOf cls =
      bus.handlersOf cls ++ if eventT = cls then [handlerF] else [] := by
  unfold handlersOf subscribe
  by_cases h : eventT = cls
  · rw [if_pos h, ← h, Dict.get?_setItem_self, Option.getD_some]
    rfl
  · rw [if_neg h, Dict.get?_setItem_of_ne _ _ (Ne.symm h), List.append_nil]

theorem handlersOf_foldl (history : List (κ × F)) (bus : InProcessEventBus κ F P M) (cls : κ) :
    (history.foldl (fun bus s => bus.subscribe s.1 s.2) bus).handlersOf cls =
      bus.handlersOf cls ++ (history.filter fun s => s.1 = cls).map Prod.snd := by
  induction history generalizing bus with
  | nil => exact (List.append_nil _).symm
  | cons s history ih =>
    rw [List.foldl_cons, ih, handlersOf_subscribe, List.append_assoc, List.filter_cons]
    by_cases h : s.1 = cls <;> simp [h]

theorem handlersOf_subscribed (publisherMiddlewares : List P) (handlerMiddlewares : List M)
    (history : List (κ × F)) (cls : κ) :
    (subscribed publisherMiddlewares handlerMiddlewares history).handlersOf cls =
      (history.filter fun s => s.1 = cls).map Prod.snd :=
  handlersOf_foldl history _ cls

/-! ## The plan -/

/-- The event and the factory of a handler that is run. -/
def delivery {E : Type} : Call E F H P M → Option (E × F)
  | .handle handlerF event _ => some (event, handlerF)
  | _ => none

omit [DecidableEq κ] in
theorem issues_wrapHandlerFactory {E : Type} (bus : InProcessEventBus κ F P M) (handlerF : F)
    (event : E) :
    (bus.wrapHandlerFactory handlerF event : Code E F H P M ε Unit).Issues delivery
      [(event, handlerF)] := by
  have hbefore (handler : H) : (beforeHandlers bus.handlerMiddlewares event handler :
      Code E F H P M ε Unit).Issues delivery [] :=
    Issues.forEach_nil (fun m => Issues.lift _) _
  have hafter (handler : H) : (afterHandlers bus.handlerMiddlewares event handler :
      Code E F H P M ε Unit).Issues delivery [] :=
    Issues.forEach_nil (fun m => Issues.lift _) _
  rw [wrapHandlerFactory_eq]
  exact (Issues.lift _).bind fun handler => (hbefore handler).bind fun _ =>
    (Issues.lift _).bind fun _ => hafter handler

theorem issues_publish (bus : InProcessEventBus κ F P M) (event : BaseEvent κ α) :
    (bus.publish event : Code (BaseEvent κ α) F H P M ε Unit).Issues delivery
      ((bus.handlersOf event.cls).map fun handlerF => (event, handlerF)) := by
  have hbefore : (forEach (fun m => call (.beforePublish m event)) bus.publisherMiddlewares :
      Code (BaseEvent κ α) F H P M ε Unit).Issues delivery [] :=
    Issues.forEach_nil (fun m => Issues.lift _) _
  have hafter : (forEach (fun m => call (.afterPublish m event)) bus.publisherMiddlewares :
      Code (BaseEvent κ α) F H P M ε Unit).Issues delivery [] :=
    Issues.forEach_nil (fun m => Issues.lift _) _
  have hhandlers := Issues.forEach
    (fun handlerF => issues_wrapHandlerFactory (H := H) (ε := ε) bus handlerF event)
    (bus.handlersOf event.cls)
  rw [← List.map_eq_flatMap] at hhandlers
  have h := hbefore.bind fun _ => hhandlers.bind fun _ => hafter
  rwa [List.append_nil] at h

theorem issues_publishMany (bus : InProcessEventBus κ F P M) (events : List (BaseEvent κ α)) :
    (bus.publishMany events : Code (BaseEvent κ α) F H P M ε Unit).Issues delivery
      ((StableSort.sorted BaseEvent.order events).flatMap fun event =>
        (bus.handlersOf event.cls).map fun handlerF => (event, handlerF)) := by
  unfold publishMany
  cases events with
  | nil =>
    rw [StableSort.sorted, List.mergeSort_nil]
    exact Issues.pure ()
  | cons event events => exact Issues.forEach (fun event => issues_publish bus event) _

/-! ## Fresh handlers -/

/-- A handler that a factory returned, or that is given an event. -/
def visit {E : Type} : Issued (Call E F H P M) Call.Reply ε → Option (F × H × Option E)
  | ⟨.build handlerF, .ok handler⟩ => some (handlerF, handler, none)
  | ⟨.handle handlerF event handler, _⟩ => some (handlerF, handler, some event)
  | _ => none

/-- Whenever a handler is given an event, its factory has just returned it. -/
def Fresh {E : Type} (trace : List (Issued (Call E F H P M) Call.Reply ε)) : Prop :=
  ∀ before handlerF handler event after,
    trace.filterMap visit = before ++ (handlerF, handler, some event) :: after →
      ∃ before', before = before' ++ [(handlerF, handler, none)]

theorem fresh_additive {E : Type} :
    Additive (Fresh : List (Issued (Call E F H P M) Call.Reply ε) → Prop) where
  nil := by
    intro before _ _ _ _ hsplit
    exact absurd (congrArg List.length hsplit) (by simp)
  append := by
    intro trace trace' h h' before handlerF handler event after hsplit
    rw [List.filterMap_append, List.append_eq_append_iff] at hsplit
    rcases hsplit with ⟨between, rfl, hlater⟩ | ⟨between, hearlier, hlater⟩
    · obtain ⟨before', rfl⟩ := h' _ _ _ _ _ hlater
      exact ⟨_, (List.append_assoc _ _ _).symm⟩
    · cases between with
      | nil =>
        obtain ⟨before', h⟩ := h' [] _ _ _ _ hlater.symm
        exact absurd (congrArg List.length h) (by simp)
      | cons v between =>
        obtain ⟨rfl, -⟩ := List.cons.inj hlater
        exact h _ _ _ _ _ hearlier

theorem fresh_of_filterMap {E : Type} {trace : List (Issued (Call E F H P M) Call.Reply ε)}
    (h : trace.filterMap visit = []) : Fresh trace := by
  intro before _ _ _ _ hsplit
  rw [h] at hsplit
  exact absurd (congrArg List.length hsplit) (by simp)

theorem fresh_of_prefix {E : Type} {trace : List (Issued (Call E F H P M) Call.Reply ε)}
    (handlerF : F) (handler : H) (event : E)
    (h : trace.filterMap visit <+: [(handlerF, handler, none), (handlerF, handler, some event)]) :
    Fresh trace := by
  intro before handlerF' handler' event' after hsplit
  rw [hsplit] at h
  obtain ⟨rest, hrest⟩ := h
  match before, hrest with
  | [], hrest => exact absurd (List.cons.inj hrest).1 (by simp)
  | [v], hrest =>
    simp only [List.cons_append, List.nil_append, List.cons.injEq, Prod.mk.injEq] at hrest
    obtain ⟨rfl, ⟨rfl, rfl, -⟩, -⟩ := hrest
    exact ⟨[], rfl⟩
  | v :: v' :: before, hrest => exact absurd (congrArg List.length hrest) (by simp)

section

variable {E : Type} (handlerF : F) (event : E)
  (exec : (c : Call E F H P M) → W → Except ε c.Reply × W)

omit [DecidableEq κ] in
/-- Once a handler is built, it is at most run once. -/
theorem visits_deliver (handler : H) (before after : List M) (w : W) :
    ((deliver handlerF event handler before after).issued exec w).filterMap visit <+:
      [(handlerF, handler, some event)] := by
  have hbefore : ((beforeHandlers before event handler :
      Code E F H P M ε Unit).issued exec w).filterMap visit = [] :=
    (additive_filterMap visit).forEach (fun m w => rfl) _ w
  have hafter (w : W) : ((afterHandlers after event handler :
      Code E F H P M ε Unit).issued exec w).filterMap visit = [] :=
    (additive_filterMap visit).forEach (fun m w => rfl) _ w
  rw [deliver, issued_bind, List.filterMap_append, hbefore, List.nil_append]
  split
  · rw [issued_bind, List.filterMap_append]
    refine (List.prefix_append_right_inj [(handlerF, handler, some event)]).mpr ?_
    split
    · exact (hafter _).symm ▸ List.nil_prefix
    · exact List.nil_prefix
  · exact List.nil_prefix

omit [DecidableEq κ] in
theorem fresh_wrapHandlerFactory (bus : InProcessEventBus κ F P M) (w : W) :
    Fresh ((bus.wrapHandlerFactory handlerF event).issued exec w) := by
  rw [wrapHandlerFactory_eq, issued_bind]
  cases hbuild : (call (.build handlerF) : Code E F H P M ε H).run exec w with
  | mk answer w' =>
  have hanswer : (exec (.build handlerF) w).1 = answer := congrArg Prod.fst hbuild
  cases answer with
  | error e =>
    refine fresh_of_filterMap ?_
    rw [List.filterMap_append]
    show ([⟨.build handlerF, _⟩] : List (Issued _ _ _)).filterMap visit ++ [] = []
    rw [hanswer]
    rfl
  | ok handler =>
    refine fresh_of_prefix handlerF handler event ?_
    rw [List.filterMap_append]
    show ([⟨.build handlerF, _⟩] : List (Issued _ _ _)).filterMap visit ++ _ <+: _
    rw [hanswer]
    exact (List.prefix_append_right_inj [(handlerF, handler, none)]).mpr
      (visits_deliver handlerF event exec handler _ _ w')

end

theorem fresh_publishMany (bus : InProcessEventBus κ F P M) (events : List (BaseEvent κ α))
    (exec : (c : Call (BaseEvent κ α) F H P M) → W → Except ε c.Reply × W) (w : W) :
    Fresh ((bus.publishMany events).issued exec w) := by
  unfold publishMany
  split
  · exact fresh_additive.nil
  · refine fresh_additive.forEach (fun event w => ?_) _ w
    have hbefore (w : W) : Fresh ((forEach (fun m => call (.beforePublish m event))
        bus.publisherMiddlewares : Code (BaseEvent κ α) F H P M ε Unit).issued exec w) :=
      fresh_additive.forEach (fun m w => fresh_of_filterMap rfl) _ w
    have hafter (w : W) : Fresh ((forEach (fun m => call (.afterPublish m event))
        bus.publisherMiddlewares : Code (BaseEvent κ α) F H P M ε Unit).issued exec w) :=
      fresh_additive.forEach (fun m w => fresh_of_filterMap rfl) _ w
    have hhandlers (w : W) := fresh_additive.forEach
      (fun handlerF w => fresh_wrapHandlerFactory handlerF event exec bus w)
      (bus.handlersOf event.cls) w
    exact fresh_additive.bind hbefore (fun _ => fresh_additive.bind hhandlers fun _ => hafter) w

/-- **`publish_many` runs the handlers of its events one after the other: the events by order, tied
ones as they are listed, and for each the handlers subscribed to its class, in the order of the
subscriptions, every one just built by its factory. A call that raises is the last, and what it
raises reaches the caller; nothing else does.** -/
theorem publishMany_delivers (publisherMiddlewares : List P) (handlerMiddlewares : List M)
    (history : List (κ × F)) (events : List (BaseEvent κ α))
    (exec : (c : Call (BaseEvent κ α) F H P M) → W → Except ε c.Reply × W) (w : W) :
    let code := (subscribed publisherMiddlewares handlerMiddlewares history).publishMany events
    let trace := code.issued exec w
    ∃ ordered : List (BaseEvent κ α), ordered.Perm events ∧
      (ordered.Pairwise fun event event' => event.order ≤ event'.order) ∧
      (∀ n, (ordered.filter fun event => event.order = n) =
        events.filter fun event => event.order = n) ∧
      let plan := ordered.flatMap fun event =>
        (history.filter fun s => s.1 = event.cls).map fun s => (event, s.2)
      (trace.filterMap fun i => delivery i.statement) <+: plan ∧ Fresh trace ∧
        ((code.run exec w).1 = .ok () → (trace.filterMap fun i => delivery i.statement) = plan) ∧
        (∀ before i exc after, trace = before ++ i :: after → i.answer = .error exc →
          after = [] ∧ (code.run exec w).1 = .error exc) ∧
        ∀ exc, (code.run exec w).1 = .error exc → ∃ i ∈ trace, i.answer = .error exc := by
  intro code trace
  refine ⟨StableSort.sorted BaseEvent.order events, StableSort.sorted_perm _ _,
    StableSort.sorted_pairwise _ _, StableSort.filter_sorted _ _, ?_⟩
  intro plan
  have hplan : ((StableSort.sorted BaseEvent.order events).flatMap fun event =>
      ((subscribed publisherMiddlewares handlerMiddlewares history).handlersOf event.cls).map
        fun handlerF => (event, handlerF)) = plan := by
    simp only [handlersOf_subscribed, List.map_map]
    rfl
  have hissues : code.Issues delivery plan := hplan ▸ issues_publishMany _ events
  have hraised : ∀ before i exc after, trace = before ++ i :: after → i.answer = .error exc →
      after = [] ∧ (code.run exec w).1 = .error exc :=
    fun before i exc after hsplit hraise => hissues.raised hsplit hraise
  have hfresh : Fresh trace := fresh_publishMany _ events exec w
  rcases hissues.run w with ⟨⟨u, hok⟩, hall, -⟩ | ⟨hpart, e, c, herror, hmem⟩
  · exact ⟨hall ▸ List.prefix_rfl, hfresh, fun _ => hall, hraised,
      fun exc hexc => absurd (hok.symm.trans hexc) nofun⟩
  · refine ⟨hpart, hfresh, fun hok => absurd (herror.symm.trans hok) nofun, hraised,
      fun exc hexc => ⟨_, hmem, ?_⟩⟩
    obtain rfl := Except.error.inj (herror.symm.trans hexc)
    rfl

end InProcessEventBus

end ApiTemplate.Events
