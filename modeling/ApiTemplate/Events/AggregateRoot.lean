import Mathlib.Data.List.Basic
import Mathlib.Tactic.Common

/-!
# Events of an aggregate

`AggregateRoot.add_domain_event` and `pull_events` over whole runs, beside a hand-over that gives
each recorded event away once.
-/

namespace ApiTemplate.Events

variable {D κ : Type}

/-! ## `aggregate_root.py` -/

inductive PyError
  | typeError
  deriving DecidableEq

/-- The first argument of `filter`: a function, or a function in a tuple with a list. -/
inductive FilterCb (D : Type)
  | function (f : D → Bool)
  | tuple (f : D → Bool) (events : List D)

/-- `tuple(filter(filter_cb, events))`; a tuple is called for the first event, and cannot be. -/
def tupleFilter : FilterCb D → List D → Except PyError (List D)
  | .function f, events => .ok (events.filter f)
  | .tuple .., [] => .ok []
  | .tuple .., _ :: _ => .error .typeError

/-- A class or a tuple of classes. -/
inductive Types (κ : Type)
  | cls (c : κ)
  | tuple (cs : List κ)

/-- `isinstance(event, types)` -/
def Types.isinstance (instanceOf : D → κ → Bool) : Types κ → D → Bool
  | .cls c, event => instanceOf event c
  | .tuple cs, event => cs.any (instanceOf event)

/-- `not types` -/
def Types.falsy : Option (Types κ) → Bool
  | none => true
  | some (.tuple []) => true
  | some _ => false

structure AggregateRoot (D : Type) where
  events : List D := []

def AggregateRoot.addDomainEvent (root : AggregateRoot D) (event : D) : AggregateRoot D :=
  { root with events := root.events ++ [event] }

def AggregateRoot.pullEvents (instanceOf : D → κ → Bool) (root : AggregateRoot D)
    (types : Option (Types κ) := none) (exceptFilter : Bool := false) :
    Except PyError (List D) :=
  match types with
  | none => .ok root.events
  | some types =>
    if Types.falsy (some types) then .ok root.events
    else
      let filterCb :=
        if exceptFilter then FilterCb.tuple (fun x => types.isinstance instanceOf x) root.events
        else FilterCb.tuple (fun x => !types.isinstance instanceOf x) root.events
      tupleFilter filterCb root.events

/-! ## Runs -/

/-- A call on an aggregate. -/
inductive Op (D κ : Type)
  | add (event : D)
  | pull (types : Option (Types κ)) (exceptFilter : Bool)

/-- What the pulls of a run return. -/
def pulled (instanceOf : D → κ → Bool) :
    AggregateRoot D → List (Op D κ) → List (Except PyError (List D))
  | _, [] => []
  | root, .add event :: ops => pulled instanceOf (root.addDomainEvent event) ops
  | root, .pull types exceptFilter :: ops =>
    root.pullEvents instanceOf types exceptFilter :: pulled instanceOf root ops

/-! ## Handing each event over once -/

/-- The events a pull is for; `mode` is the `except_filter` that asks for the instances. -/
def selects (instanceOf : D → κ → Bool) (mode : Bool) (types : Option (Types κ))
    (exceptFilter : Bool) (event : D) : Bool :=
  match types with
  | none => true
  | some types => types.isinstance instanceOf event == (exceptFilter == mode)

/-- What the pulls of a run return when each takes its events from the pending ones. -/
def handedOver (instanceOf : D → κ → Bool) (mode : Bool) :
    List D → List (Op D κ) → List (List D)
  | _, [] => []
  | pending, .add event :: ops => handedOver instanceOf mode (pending ++ [event]) ops
  | pending, .pull types exceptFilter :: ops =>
    pending.filter (selects instanceOf mode types exceptFilter) ::
      handedOver instanceOf mode
        (pending.filter fun event => !selects instanceOf mode types exceptFilter event) ops

/-! ## When the runs agree -/

/-- The pulls of a run. -/
def pulls : List (Op D κ) → List (Option (Types κ) × Bool)
  | [] => []
  | .add _ :: ops => pulls ops
  | .pull types exceptFilter :: ops => (types, exceptFilter) :: pulls ops

/-- The pulls after the first event. -/
def latePulls : List (Op D κ) → List (Option (Types κ) × Bool)
  | [] => []
  | .add _ :: ops => pulls ops
  | .pull .. :: ops => latePulls ops

/-- A pull for all events. -/
def forAll (mode : Bool) : Option (Types κ) → Bool → Bool
  | none, _ => true
  | some (.tuple []), exceptFilter => exceptFilter != mode
  | _, _ => false

variable {instanceOf : D → κ → Bool} {mode : Bool}

theorem pullEvents_nil (types : Option (Types κ)) (exceptFilter : Bool) :
    ({ events := [] } : AggregateRoot D).pullEvents instanceOf types exceptFilter = .ok [] := by
  unfold AggregateRoot.pullEvents
  cases types with
  | none => rfl
  | some types =>
    dsimp only
    split_ifs <;> rfl

/-- With events, a pull returns all of them or raises. -/
theorem pullEvents_of_ne_nil {root : AggregateRoot D} (h : root.events ≠ [])
    (types : Option (Types κ)) (exceptFilter : Bool) :
    root.pullEvents instanceOf types exceptFilter =
      if Types.falsy types then .ok root.events else .error .typeError := by
  unfold AggregateRoot.pullEvents
  cases types with
  | none => rfl
  | some types =>
    dsimp only
    obtain ⟨event, events, hevents⟩ := List.exists_cons_of_ne_nil h
    rw [hevents]
    split_ifs <;> rfl

/-- A pull hands over all pending events, of a root that has no others, only if it is for all. -/
theorem pullEvents_eq_iff {root : AggregateRoot D} (h : root.events ≠ [])
    (types : Option (Types κ)) (exceptFilter : Bool) :
    root.pullEvents instanceOf types exceptFilter =
        .ok (root.events.filter (selects instanceOf mode types exceptFilter)) ↔
      forAll mode types exceptFilter = true := by
  rw [pullEvents_of_ne_nil h]
  obtain ⟨event, events, hevents⟩ := List.exists_cons_of_ne_nil h
  rw [hevents]
  match types with
  | none =>
    have hselects : (event :: events).filter (selects instanceOf mode none exceptFilter) =
        event :: events := List.filter_eq_self.mpr fun _ _ => rfl
    rw [hselects]
    exact iff_of_true rfl rfl
  | some (.cls c) => simp [Types.falsy, forAll]
  | some (.tuple []) =>
    have hselects : selects instanceOf mode (some (.tuple [])) exceptFilter =
        fun _ => exceptFilter != mode := by
      cases exceptFilter <;> cases mode <;> rfl
    rw [hselects, forAll]
    cases exceptFilter != mode <;> simp [Types.falsy]
  | some (.tuple (c :: cs)) => simp [Types.falsy, forAll]

theorem selects_of_forAll {types : Option (Types κ)} {exceptFilter : Bool}
    (h : forAll mode types exceptFilter = true) (event : D) :
    selects instanceOf mode types exceptFilter event = true := by
  match types with
  | none => rfl
  | some (.cls c) => cases h
  | some (.tuple []) =>
    cases exceptFilter <;> cases mode <;> first | rfl | cases h
  | some (.tuple (c :: cs)) => cases h

/-- Once fewer events are pending than recorded, every pull returns or raises something else. -/
theorem pulled_eq_iff_of_lt {root : AggregateRoot D} {pending : List D}
    (h : pending.length < root.events.length) (ops : List (Op D κ)) :
    pulled instanceOf root ops = (handedOver instanceOf mode pending ops).map .ok ↔
      pulls ops = [] := by
  induction ops generalizing root pending with
  | nil => exact iff_of_true rfl rfl
  | cons op ops ih =>
    cases op with
    | add event => exact ih (by simpa [AggregateRoot.addDomainEvent] using h)
    | pull types exceptFilter =>
      refine iff_of_false (fun heq => ?_) (List.cons_ne_nil _ _)
      have hfirst := (List.cons.inj heq).1
      rw [pullEvents_of_ne_nil (List.ne_nil_of_length_pos (Nat.zero_lt_of_lt h))] at hfirst
      split_ifs at hfirst
      have hlength := congrArg List.length (Except.ok.inj hfirst)
      have hle := List.length_filter_le (selects instanceOf mode types exceptFilter) pending
      omega

/-- From the first event on. -/
theorem pulled_eq_iff_of_ne_nil {root : AggregateRoot D} (h : root.events ≠ [])
    (ops : List (Op D κ)) :
    pulled instanceOf root ops = (handedOver instanceOf mode root.events ops).map .ok ↔
      pulls ops = [] ∨ ∃ pull, pulls ops = [pull] ∧ forAll mode pull.1 pull.2 = true := by
  induction ops generalizing root with
  | nil => exact iff_of_true rfl (.inl rfl)
  | cons op ops ih =>
    cases op with
    | add event => exact ih (by simp [AggregateRoot.addDomainEvent])
    | pull types exceptFilter =>
      have hlt : ([] : List D).length < root.events.length := List.length_pos_iff.mpr h
      rw [pulled, handedOver, List.map_cons, List.cons.injEq, pullEvents_eq_iff h]
      constructor
      · rintro ⟨hall, hrest⟩
        have hpending : (root.events.filter fun event =>
            !selects instanceOf mode types exceptFilter event) = [] := by
          simp [selects_of_forAll hall]
        rw [hpending] at hrest
        have hpulls := (pulled_eq_iff_of_lt hlt ops).mp hrest
        exact .inr ⟨(types, exceptFilter), by rw [pulls, hpulls], hall⟩
      · rintro (hnone | ⟨pull, hpull, hall⟩)
        · cases hnone
        · obtain ⟨rfl, hpulls⟩ := List.cons.inj hpull
          have hpending : (root.events.filter fun event =>
              !selects instanceOf mode types exceptFilter event) = [] := by
            simp [selects_of_forAll hall]
          refine ⟨hall, ?_⟩
          rw [hpending]
          exact (pulled_eq_iff_of_lt hlt ops).mpr hpulls

/-- **The pulls of a run return what is pending, each event once, exactly when at most one of them
comes after the first event, and it is for all events.** -/
theorem pulled_eq_iff (ops : List (Op D κ)) :
    pulled instanceOf {} ops = (handedOver instanceOf mode [] ops).map .ok ↔
      latePulls ops = [] ∨ ∃ pull, latePulls ops = [pull] ∧ forAll mode pull.1 pull.2 = true := by
  induction ops with
  | nil => exact iff_of_true rfl (.inl rfl)
  | cons op ops ih =>
    cases op with
    | add event => exact pulled_eq_iff_of_ne_nil (List.cons_ne_nil event []) ops
    | pull types exceptFilter =>
      rw [pulled, handedOver, List.map_cons, List.cons.injEq, pullEvents_nil]
      exact (and_iff_right rfl).trans ih

/-- A second pull returns the same event again, and a pull by class raises. -/
theorem not_pulled_eq :
    let twice : List (Op ℕ ℕ) := [.add 7, .pull none false, .pull none false]
    let byClass : List (Op ℕ ℕ) := [.add 7, .pull (some (.cls 0)) false]
    let instanceOf : ℕ → ℕ → Bool := fun _ _ => true
    pulled instanceOf {} twice = [.ok [7], .ok [7]] ∧
      (∀ mode, handedOver instanceOf mode [] twice = [[7], []]) ∧
      pulled instanceOf {} byClass = [.error .typeError] := by
  refine ⟨rfl, fun mode => ?_, rfl⟩
  cases mode <;> rfl

end ApiTemplate.Events
