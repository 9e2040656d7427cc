import Mathlib.Data.List.Basic

/-!
# Audit columns

`set_created_props` and `set_updated_props` stamp a row at its flushes. Both write the acting user
only into a column that is `None`: for `created_by_id` this keeps an author who was set, and for
`updated_by_id` it keeps the first user who updated the row.
-/

namespace ApiTemplate.Entities.AuditColumns

variable {U T R : Type}

/-! ## `execution_context.py` -/

/-- `ExecutionContext`, by the id of its user. -/
structure ExecutionContext (U : Type) where
  user : Option U

def ExecutionContext.userId (context : ExecutionContext U) : Option U := context.user

inductive PyError
  | lookupError
  deriving DecidableEq

/-! ## `event_listeners.py`, `base_orm_models.py` -/

/-- `_current_user_id` for what `get_context` gives. -/
def currentUserId : Except PyError (ExecutionContext U) → Option U
  | .ok context => context.userId
  | .error .lookupError => none

/-- Which of `ChronoModelMixin` and `AuthorInfoModelMixin` a model has: its `hasattr`. -/
structure Model where
  chrono : Bool
  authorInfo : Bool

/-- An object of a model; `rest` are its other columns. -/
structure Target (U T R : Type) where
  createdAt : Option T := none
  createdById : Option U := none
  updatedAt : Option T := none
  updatedById : Option U := none
  rest : R

def setCreatedProps (model : Model) (now : T) (exCtx : Except PyError (ExecutionContext U))
    (target : Target U T R) : Target U T R :=
  let target := if model.chrono then { target with createdAt := some now } else target
  if model.authorInfo ∧ target.createdById.isNone then
    { target with createdById := currentUserId exCtx }
  else target

def setUpdatedProps (model : Model) (now : T) (exCtx : Except PyError (ExecutionContext U))
    (target : Target U T R) : Target U T R :=
  let target := if model.chrono then { target with updatedAt := some now } else target
  if model.authorInfo ∧ target.updatedById.isNone then
    { target with updatedById := currentUserId exCtx }
  else target

/-! ## Flushes of one row -/

/-- A flush at `now`, by the application's clock and by that of the database. -/
structure Flush (U T : Type) where
  now : T
  exCtx : Except PyError (ExecutionContext U)

/-- `edit` is what was assigned to the other columns since the last flush. -/
structure Update (U T R : Type) extends Flush U T where
  edit : R → R

/-- The user a flush acts for. -/
def Flush.user (flush : Flush U T) : Option U := currentUserId flush.exCtx

/-- `default=func.now()` of the two times, for what the listener leaves unset. -/
def columnDefaults (model : Model) (now : T) (target : Target U T R) : Target U T R :=
  if model.chrono then
    { target with
      createdAt := target.createdAt.or (some now)
      updatedAt := target.updatedAt.or (some now) }
  else target

def Target.insert (model : Model) (flush : Flush U T) (target : Target U T R) : Target U T R :=
  columnDefaults model flush.now (setCreatedProps model flush.now flush.exCtx target)

def Target.update (model : Model) (target : Target U T R) (update : Update U T R) :
    Target U T R :=
  setUpdatedProps model update.now update.exCtx { target with rest := update.edit target.rest }

def Target.updates (model : Model) (target : Target U T R) (updates : List (Update U T R)) :
    Target U T R :=
  updates.foldl (Target.update model) target

/-- The row after its insertion and `updates`. -/
def rowAfter (model : Model) (target : Target U T R) (insertion : Flush U T)
    (updates : List (Update U T R)) : Target U T R :=
  (target.insert model insertion).updates model updates

/-- What an audit relies on, after the insertion and after each update. -/
structure Audited (model : Model) (target : Target U T R) (insertion : Flush U T)
    (updates : List (Update U T R)) : Prop where
  createdAt : ∀ pre post, updates = pre ++ post →
    (rowAfter model target insertion pre).createdAt = some insertion.now
  createdById : ∀ pre post, updates = pre ++ post →
    (rowAfter model target insertion pre).createdById = target.createdById.or insertion.user
  updatedAt : ∀ pre update post, updates = pre ++ update :: post → ∀ user,
    update.user = some user →
      (rowAfter model target insertion (pre ++ [update])).updatedAt = some update.now
  updatedById : ∀ pre update post, updates = pre ++ update :: post → ∀ user,
    update.user = some user →
      (rowAfter model target insertion (pre ++ [update])).updatedById = some user

/-- All updates that act for a user act for the same one, who is also the one that was set at the
insertion, if any was. -/
def OneUpdater (target : Target U T R) (updates : List (Update U T R)) : Prop :=
  ∀ update ∈ updates, ∀ user, update.user = some user →
    (∀ other, target.updatedById = some other → other = user) ∧
    ∀ update' ∈ updates, ∀ other, update'.user = some other → other = user

/-! ## One flush -/

section

variable {model : Model} (target : Target U T R)

theorem createdAt_insert (hchrono : model.chrono = true) (flush : Flush U T) :
    (target.insert model flush).createdAt = some flush.now := by
  simp only [Target.insert, columnDefaults, setCreatedProps, hchrono, if_true]
  split <;> rfl

theorem createdById_insert (hauthor : model.authorInfo = true) (flush : Flush U T) :
    (target.insert model flush).createdById = target.createdById.or flush.user := by
  obtain ⟨createdAt, createdById, updatedAt, updatedById, rest⟩ := target
  cases createdById <;> cases hchrono : model.chrono <;>
    simp [Target.insert, columnDefaults, setCreatedProps, hchrono, hauthor, Flush.user]

theorem updatedById_insert (flush : Flush U T) :
    (target.insert model flush).updatedById = target.updatedById := by
  simp only [Target.insert, columnDefaults, setCreatedProps]
  split <;> split <;> rfl

theorem createdAt_update (update : Update U T R) :
    (target.update model update).createdAt = target.createdAt := by
  simp only [Target.update, setUpdatedProps]
  split <;> split <;> rfl

theorem createdById_update (update : Update U T R) :
    (target.update model update).createdById = target.createdById := by
  simp only [Target.update, setUpdatedProps]
  split <;> split <;> rfl

theorem updatedAt_update (hchrono : model.chrono = true) (update : Update U T R) :
    (target.update model update).updatedAt = some update.now := by
  simp only [Target.update, setUpdatedProps, hchrono, if_true]
  split <;> rfl

/-- The guard keeps a user who is there. -/
theorem updatedById_update (hauthor : model.authorInfo = true) (update : Update U T R) :
    (target.update model update).updatedById = target.updatedById.or update.user := by
  obtain ⟨createdAt, createdById, updatedAt, updatedById, rest⟩ := target
  cases updatedById <;> cases hchrono : model.chrono <;>
    simp [Target.update, setUpdatedProps, hchrono, hauthor, Flush.user]

end

/-! ## Runs -/

section

variable {model : Model} {target : Target U T R} {insertion : Flush U T}

theorem created_updates (updates : List (Update U T R)) (row : Target U T R) :
    (row.updates model updates).createdAt = row.createdAt ∧
      (row.updates model updates).createdById = row.createdById := by
  induction updates generalizing row with
  | nil => exact ⟨rfl, rfl⟩
  | cons update updates ih =>
    obtain ⟨hat, hby⟩ := ih (row.update model update)
    exact ⟨hat.trans (createdAt_update row update), hby.trans (createdById_update row update)⟩

theorem updatedById_updates (hauthor : model.authorInfo = true) (updates : List (Update U T R))
    (row : Target U T R) :
    (row.updates model updates).updatedById =
      row.updatedById.or (updates.findSome? (·.user)) := by
  induction updates generalizing row with
  | nil => simp [Target.updates]
  | cons update updates ih =>
    calc ((row.update model update).updates model updates).updatedById
        = (row.updatedById.or update.user).or (updates.findSome? (·.user)) := by
          rw [ih, updatedById_update row hauthor]
      _ = row.updatedById.or ((update :: updates).findSome? (·.user)) := by
          rw [Option.or_assoc, List.findSome?_cons]
          cases update.user <;> rfl

/-- The first user on record stays on the row. -/
theorem updatedById_rowAfter (hauthor : model.authorInfo = true)
    (updates : List (Update U T R)) :
    (rowAfter model target insertion updates).updatedById =
      target.updatedById.or (updates.findSome? (·.user)) := by
  rw [rowAfter, updatedById_updates hauthor, updatedById_insert]

/-- A stamp that is there after some updates is there after all. -/
theorem stamp_append {pre : List (Update U T R)} (post : List (Update U T R)) {user : U}
    (h : target.updatedById.or (pre.findSome? (·.user)) = some user) :
    target.updatedById.or ((pre ++ post).findSome? (·.user)) = some user := by
  rw [List.findSome?_append, ← Option.or_assoc, h]
  rfl

theorem stamp_of_oneUpdater {pre post : List (Update U T R)} {update : Update U T R} {user : U}
    (hone : OneUpdater target (pre ++ update :: post)) (huser : update.user = some user) :
    target.updatedById.or ((pre ++ [update]).findSome? (·.user)) = some user := by
  obtain ⟨hset, hothers⟩ := hone update (by simp) user huser
  cases hexplicit : target.updatedById with
  | some other => rw [hset other hexplicit, Option.some_or]
  | none =>
    rw [Option.none_or]
    cases hfirst : (pre ++ [update]).findSome? (·.user) with
    | none =>
      have hnone := List.findSome?_eq_none_iff.mp hfirst update (by simp)
      rw [huser] at hnone
      cases hnone
    | some other =>
      obtain ⟨first, hmem, hother⟩ := List.exists_of_findSome?_eq_some hfirst
      have hfirst' : first ∈ pre ++ update :: post := by
        rcases List.mem_append.mp hmem with h | h
        · exact List.mem_append_left _ h
        · obtain rfl := List.mem_singleton.mp h
          simp
      rw [hothers first hfirst' other hother]

theorem stamps_iff_oneUpdater (updates : List (Update U T R)) :
    (∀ pre update post, updates = pre ++ update :: post → ∀ user, update.user = some user →
      target.updatedById.or ((pre ++ [update]).findSome? (·.user)) = some user) ↔
    OneUpdater target updates := by
  constructor
  · intro hstamps
    -- every acting user is the one on the row in the end
    have hlast : ∀ update ∈ updates, ∀ user, update.user = some user →
        target.updatedById.or (updates.findSome? (·.user)) = some user := by
      intro update hmem user huser
      obtain ⟨pre, post, rfl⟩ := List.append_of_mem hmem
      have h := stamp_append post (hstamps pre update post rfl user huser)
      rwa [List.append_assoc] at h
    intro update hmem user huser
    have hfinal := hlast update hmem user huser
    refine ⟨fun other hother => ?_, fun update' hmem' other hother => ?_⟩
    · rw [hother] at hfinal
      exact Option.some_inj.mp hfinal
    · exact Option.some_inj.mp ((hlast update' hmem' other hother).symm.trans hfinal)
  · rintro hone pre update post rfl user huser
    exact stamp_of_oneUpdater hone huser

end

/-- A row with the audit columns is stamped as it should be exactly if no two of its updaters
differ. -/
theorem audited_iff (model : Model) (target : Target U T R) (insertion : Flush U T)
    (updates : List (Update U T R)) (hchrono : model.chrono = true)
    (hauthor : model.authorInfo = true) :
    Audited model target insertion updates ↔ OneUpdater target updates := by
  rw [← stamps_iff_oneUpdater]
  constructor
  · intro h pre update post hsplit user huser
    exact (updatedById_rowAfter hauthor _).symm.trans
      (h.updatedById pre update post hsplit user huser)
  · intro h
    refine ⟨fun pre _ _ => ?_, fun pre _ _ => ?_, fun pre update _ _ _ _ => ?_, ?_⟩
    · exact (created_updates pre _).1.trans (createdAt_insert target hchrono insertion)
    · exact (created_updates pre _).2.trans (createdById_insert target hauthor insertion)
    · rw [rowAfter, Target.updates, List.foldl_append]
      exact updatedAt_update _ hchrono update
    · intro pre update post hsplit user huser
      rw [updatedById_rowAfter hauthor]
      exact h pre update post hsplit user huser

/-- An insertion or an update at `now` by `user`. -/
def flushBy (user now : ℕ) : Flush ℕ ℕ := ⟨now, .ok ⟨some user⟩⟩

def updateBy (user now : ℕ) : Update ℕ ℕ ℕ := { flushBy user now with edit := (· + 1) }

theorem audited_iff_one :
    Audited ⟨true, true⟩ (⟨none, none, none, none, 0⟩ : Target ℕ ℕ ℕ) (flushBy 1 0)
        [updateBy 1 5, updateBy 1 9] ↔
      OneUpdater (⟨none, none, none, none, 0⟩ : Target ℕ ℕ ℕ) [updateBy 1 5, updateBy 1 9] :=
  audited_iff _ _ _ _ rfl rfl

/-- User 2 updates a row that user 1 updated before: user 1 stays on it. -/
theorem not_audited :
    ¬Audited ⟨true, true⟩ (⟨none, none, none, none, 0⟩ : Target ℕ ℕ ℕ) (flushBy 1 0)
      [updateBy 1 5, updateBy 2 9] := by
  intro h
  have hby := h.updatedById [updateBy 1 5] (updateBy 2 9) [] rfl 2 rfl
  have hrow : (rowAfter ⟨true, true⟩ (⟨none, none, none, none, 0⟩ : Target ℕ ℕ ℕ) (flushBy 1 0)
      [updateBy 1 5, updateBy 2 9]).updatedById = some 1 := rfl
  have hone : some 1 = some 2 := hrow.symm.trans hby
  simp at hone

end ApiTemplate.Entities.AuditColumns
