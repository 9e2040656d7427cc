import ApiTemplate.Fallible.Loops
import ApiTemplate.Fallible.Results
import Mathlib.Data.Int.Notation
import Mathlib.Data.List.Basic

/-!
# Batches

`batch_create_from_dict`, `_batch_create` and `batch_save` of `SqlAlchemyRepository` add objects to
the session, `batch_size` at a time. In every pass the offset moves by
`min(batch_size, total - offset)`: with a positive batch size it reaches the end, and with any other
the guard holds for ever, unless there is nothing to add.
-/

namespace ApiTemplate.Listing.Batches

open Loops (Loop)
open Fallible (mapM_append mapM_cons mapM_ok)

/-! ## Sequences of Python -/

/-- What a pass may raise: an index that is out of range, a keyword argument given twice, or what
the model's constructor raises. -/
inductive PyError (ε : Type)
  | indexError
  | typeError
  | raised (e : ε)
  deriving DecidableEq

section

variable {α ε : Type}

/-- Where a bound of a slice falls among `n` elements; a negative one counts from the end. -/
def bound (n : ℕ) (i : ℤ) : ℕ := if i < 0 then (n + i).toNat else min i.toNat n

/-- `xs[start:stop]` -/
def slice (xs : List α) (start stop : ℤ) : List α :=
  (xs.drop (bound xs.length start)).take (bound xs.length stop - bound xs.length start)

/-- `xs[i]` -/
def getItem (xs : List α) (i : ℤ) : Except (PyError ε) α :=
  let place := if i < 0 then xs.length + i else i
  if place < 0 then .error .indexError
  else
    match xs[place.toNat]? with
    | some a => .ok a
    | none => .error .indexError

/-- `range(start, stop)` -/
def range (start stop : ℤ) : List ℤ := (List.range (stop - start).toNat).map fun k : ℕ => start + k

theorem bound_natCast {n k : ℕ} (h : k ≤ n) : bound n k = k := by
  unfold bound
  rw [if_neg (Int.not_lt.mpr (Int.natCast_nonneg k)), Int.toNat_natCast, Nat.min_eq_left h]

theorem slice_window {xs : List α} {k c : ℕ} (h : k + c ≤ xs.length) :
    slice xs k (k + c) = (xs.drop k).take c := by
  rw [slice, ← Int.natCast_add, bound_natCast h, bound_natCast (by omega), Nat.add_sub_cancel_left]

theorem getItem_natCast {xs : List α} {k : ℕ} (h : k < xs.length) :
    (getItem xs k : Except (PyError ε) α) = .ok xs[k] := by
  unfold getItem
  dsimp only
  rw [if_neg (Int.not_lt.mpr (Int.natCast_nonneg k)), if_neg (Int.not_lt.mpr (Int.natCast_nonneg k)),
    Int.toNat_natCast, List.getElem?_eq_getElem h]

theorem range_succ (k c : ℕ) :
    range k (k + (c + 1 : ℕ)) = (k : ℤ) :: range (k + 1 : ℕ) ((k + 1 : ℕ) + c) := by
  have hlong : ((k : ℤ) + (c + 1 : ℕ) - k).toNat = c + 1 := by omega
  have hshort : (((k + 1 : ℕ) : ℤ) + c - (k + 1 : ℕ)).toNat = c := by omega
  unfold range
  rw [hlong, hshort, List.range_succ_eq_map, List.map_cons, List.map_map]
  refine List.cons_eq_cons.mpr ⟨by simp, List.map_congr_left fun i _ => ?_⟩
  show (k : ℤ) + (i + 1 : ℕ) = (k + 1 : ℕ) + (i : ℤ)
  omega

/-- The items at the offsets of a window are those of the window. -/
theorem mapM_range {β : Type} (f : α → Except (PyError ε) β) {xs : List α} {k c : ℕ}
    (h : k + c ≤ xs.length) :
    ((range k (k + c)).mapM fun i => getItem xs i >>= f) = ((xs.drop k).take c).mapM f := by
  induction c generalizing k with
  | zero =>
    have hnil : range k (k + (0 : ℕ)) = [] := by simp [range]
    rw [hnil, List.take_zero]
    rfl
  | succ c ih =>
    have hlt : k < xs.length := by omega
    rw [range_succ, mapM_cons, getItem_natCast hlt, ih (by omega), List.drop_eq_getElem_cons hlt,
      List.take_succ_cons, mapM_cons]
    rfl

end

/-! ## `base_orm_repository.py` -/

variable {ε V TModel : Type}

/-- Keyword arguments: the entries of a `dict` whose keys are strings. -/
abbrev Kwargs (V : Type) : Type := List (String × V)

/-- `self.model(**obj_in, **kwargs)` -/
def construct (model : Kwargs V → Except ε TModel) (kwargs objIn : Kwargs V) :
    Except (PyError ε) TModel :=
  if ∃ key ∈ objIn.map Prod.fst, key ∈ kwargs.map Prod.fst then .error .typeError
  else
    match model (objIn ++ kwargs) with
    | .ok obj => .ok obj
    | .error e => .error (.raised e)

/-- The offset of the next batch, and what has been added to the session. -/
structure Batch (TModel : Type) where
  offset : ℤ
  session : List TModel
  deriving DecidableEq

/-- `while total > offset`, where `objs` gives the objects between two offsets. -/
def batching (total batchSize : ℤ) (objs : ℤ → ℤ → Except (PyError ε) (List TModel)) :
    Loop (PyError ε) (Batch TModel) where
  guard batch := total > batch.offset
  body batch := do
    let currentBatchSize := min batchSize (total - batch.offset)
    let added ← objs batch.offset (batch.offset + currentBatchSize)
    return ⟨batch.offset + currentBatchSize, batch.session ++ added⟩

/-- `batch_create_from_dict` -/
def batchCreateFromDict (model : Kwargs V → Except ε TModel) (objsIn : List (Kwargs V))
    (batchSize : ℤ := 200) (kwargs : Kwargs V := []) : Loop (PyError ε) (Batch TModel) :=
  batching objsIn.length batchSize fun offset stop =>
    (range offset stop).mapM fun i => getItem objsIn i >>= construct model kwargs

/-- `_batch_create` -/
def batchCreate (objsIn : List TModel) (batchSize : ℤ := 200) : Loop (PyError ε) (Batch TModel) :=
  batching objsIn.length batchSize fun offset stop => .ok (slice objsIn offset stop)

/-- `batch_save` -/
def batchSave (dbObjs : List TModel) (batchSize : ℤ := 200) : Loop (PyError ε) (Batch TModel) :=
  batching dbObjs.length batchSize fun offset stop => .ok (slice dbObjs offset stop)

/-! ## Passes -/

section

variable {D : Type} {xs : List D} {make : D → Except (PyError ε) TModel} {batchSize : ℤ}
  {objs : ℤ → ℤ → Except (PyError ε) (List TModel)}

/-- Between two offsets stand the objects that are made of the elements between them. -/
def Windows (xs : List D) (make : D → Except (PyError ε) TModel)
    (objs : ℤ → ℤ → Except (PyError ε) (List TModel)) : Prop :=
  ∀ k c : ℕ, k + c ≤ xs.length → objs k (k + c) = ((xs.drop k).take c).mapM make

theorem windows_slice (xs : List TModel) :
    Windows (ε := ε) xs .ok fun offset stop => .ok (slice xs offset stop) := by
  intro k c h
  have hmap : ((xs.drop k).take c).mapM (.ok : TModel → Except (PyError ε) TModel) =
      .ok (((xs.drop k).take c).map id) := mapM_ok fun _ _ => rfl
  rw [hmap, List.map_id]
  exact congrArg Except.ok (slice_window h)

theorem windows_range (make : D → Except (PyError ε) TModel) (xs : List D) :
    Windows xs make fun offset stop => (range offset stop).mapM fun i => getItem xs i >>= make :=
  fun _ _ h => mapM_range make h

/-- The first `k` elements are done with, and `r` is what the others lead to. -/
def Standing (xs : List D) (make : D → Except (PyError ε) TModel) (batch : Batch TModel)
    (r : Except (PyError ε) (Batch TModel)) : Prop :=
  ∃ k : ℕ, k ≤ xs.length ∧ batch.offset = k ∧
    r = ((xs.drop k).mapM make).map fun added => ⟨xs.length, batch.session ++ added⟩

/-- A pass takes a batch that is not empty and lies within the sequence. -/
theorem exists_size {k n : ℕ} (hk : k < n) (hsize : 0 < batchSize) :
    ∃ c : ℕ, 0 < c ∧ k + c ≤ n ∧ min batchSize ((n : ℤ) - k) = c := by
  refine ⟨(min batchSize ((n : ℤ) - k)).toNat, ?_, ?_, ?_⟩ <;> omega

/-- One pass of a positive batch size. -/
theorem standing_body (hwindows : Windows xs make objs) (hsize : 0 < batchSize)
    {batch : Batch TModel} {r : Except (PyError ε) (Batch TModel)} (h : Standing xs make batch r)
    (hguard : (batch.offset : ℤ) < xs.length) :
    (∃ e, (batching xs.length batchSize objs).body batch = .error e ∧ r = .error e) ∨
      ∃ batch', (batching xs.length batchSize objs).body batch = .ok batch' ∧
        Standing xs make batch' r ∧ batch.offset < batch'.offset := by
  obtain ⟨offset, session⟩ := batch
  obtain ⟨k, -, rfl, rfl⟩ := h
  obtain ⟨c, hpos, hle, hmin⟩ := exists_size (Int.ofNat_lt.mp hguard) hsize
  have hsplit : xs.drop k = (xs.drop k).take c ++ xs.drop (k + c) := by
    rw [← List.drop_drop, List.take_append_drop]
  have hobjs := hwindows k c hle
  rw [hsplit, mapM_append]
  unfold batching
  dsimp only
  rw [hmin, hobjs]
  cases ((xs.drop k).take c).mapM make with
  | error e => exact .inl ⟨e, rfl, rfl⟩
  | ok added =>
    refine .inr ⟨⟨k + c, session ++ added⟩, rfl, ⟨k + c, hle, rfl, ?_⟩, ?_⟩
    · show ((xs.drop (k + c)).mapM make |>.map (added ++ ·)).map _ = _
      cases (xs.drop (k + c)).mapM make with
      | error e => rfl
      | ok rest => simp [Except.map]
    · show (k : ℤ) < k + c
      omega

/-- With a positive batch size the loop returns, and everything has been added. -/
theorem returns_batching (hwindows : Windows xs make objs) (hsize : 0 < batchSize)
    (session : List TModel) :
    (batching xs.length batchSize objs).Returns ⟨0, session⟩
      ((xs.mapM make).map fun added => ⟨xs.length, session ++ added⟩) := by
  refine Loop.returns_of_measure (Q := Standing xs make)
    (fun batch => (xs.length - batch.offset).toNat) ?_ ?_ ⟨0, Nat.zero_le _, rfl, rfl⟩
  · rintro ⟨offset, session⟩ r ⟨k, hle, rfl, rfl⟩ hguard
    have hk : k = xs.length := by
      have hnot : ¬(xs.length : ℤ) > k := of_decide_eq_false hguard
      omega
    rw [hk, List.drop_length, List.mapM_nil]
    show Except.ok (Batch.mk _ (session ++ [])) = _
    rw [List.append_nil]
  · intro batch r h hguard
    have hlt : batch.offset < xs.length := of_decide_eq_true hguard
    obtain herror | ⟨batch', hbody, hbatch', hmoved⟩ := standing_body hwindows hsize h hlt
    · exact .inl herror
    · exact .inr ⟨batch', hbody, hbatch', by omega⟩

/-- Where a pass that takes no positive number of objects always succeeds, a batch size that is not
positive leaves the offset at or before the start. -/
theorem not_returns_batching {total : ℤ} (htotal : 0 < total) (hsize : batchSize ≤ 0)
    (hobjs : ∀ offset stop, stop ≤ offset → ∃ added, objs offset stop = .ok added)
    (session : List TModel) (r : Except (PyError ε) (Batch TModel)) :
    ¬ (batching total batchSize objs).Returns ⟨0, session⟩ r := by
  refine Loop.not_returns_of_invariant (P := fun batch : Batch TModel => batch.offset ≤ 0) ?_
    (Int.le_refl 0)
  rintro ⟨offset, session⟩ hoffset
  have hle : offset ≤ 0 := hoffset
  obtain ⟨added, hadded⟩ := hobjs offset (offset + min batchSize (total - offset)) (by omega)
  refine ⟨decide_eq_true (show total > offset by omega),
    ⟨offset + min batchSize (total - offset), session ++ added⟩, ?_, ?_⟩
  · unfold batching
    dsimp only
    rw [hadded]
    rfl
  · show offset + min batchSize (total - offset) ≤ 0
    omega

/-- The loop adds all of `xs`, each made into an object once, in order; or it raises what the first
element raises of which none can be made. -/
def AddsAll (loop : Loop (PyError ε) (Batch TModel)) (session : List TModel) (xs : List D)
    (make : D → Except (PyError ε) TModel) : Prop :=
  loop.Returns ⟨0, session⟩ ((xs.mapM make).map fun added => ⟨xs.length, session ++ added⟩)

theorem addsAll_iff (hwindows : Windows xs make objs)
    (hobjs : ∀ offset stop, stop ≤ offset → ∃ added, objs offset stop = .ok added)
    (session : List TModel) :
    AddsAll (batching xs.length batchSize objs) session xs make ↔ xs = [] ∨ 1 ≤ batchSize := by
  constructor
  · intro h
    by_contra hnot
    obtain ⟨hne, hsize⟩ := not_or.mp hnot
    have htotal : 0 < xs.length := List.length_pos_iff.mpr hne
    exact not_returns_batching (by omega) (by omega) hobjs session _ h
  · rintro (rfl | hsize)
    · show Loop.Returns _ _ (Except.ok (Batch.mk _ (session ++ [])))
      rw [List.append_nil]
      exact Loop.returns_of_guard_false rfl
    · exact returns_batching hwindows hsize session

end

/-! ## The methods -/

theorem slice_ok (xs : List TModel) (offset stop : ℤ) :
    ∃ added, (.ok (slice xs offset stop) : Except (PyError ε) (List TModel)) = .ok added :=
  ⟨_, rfl⟩

/-- An empty range takes no item. -/
theorem range_ok {D : Type} (make : D → Except (PyError ε) TModel) (xs : List D) {offset stop : ℤ}
    (h : stop ≤ offset) :
    ∃ added, ((range offset stop).mapM fun i => getItem xs i >>= make) = .ok added := by
  have hnil : range offset stop = [] := by
    unfold range
    rw [Int.toNat_of_nonpos (by omega)]
    rfl
  rw [hnil]
  exact ⟨[], rfl⟩

/-- The three methods return and add every object once, in order, exactly if there is none or the
batch size is positive. -/
theorem addsAll_methods_iff (model : Kwargs V → Except ε TModel) (kwargs : Kwargs V)
    (dicts : List (Kwargs V)) (objs : List TModel) (batchSize : ℤ) (session : List TModel) :
    (AddsAll (batchCreateFromDict model dicts batchSize kwargs) session dicts
      (construct model kwargs) ↔ dicts = [] ∨ 1 ≤ batchSize) ∧
    (AddsAll (ε := ε) (batchCreate objs batchSize) session objs .ok ↔
      objs = [] ∨ 1 ≤ batchSize) ∧
    (AddsAll (ε := ε) (batchSave objs batchSize) session objs .ok ↔
      objs = [] ∨ 1 ≤ batchSize) :=
  ⟨addsAll_iff (windows_range _ dicts) (fun _ _ h => range_ok _ dicts h) session,
    addsAll_iff (windows_slice objs) (fun _ _ _ => slice_ok objs _ _) session,
    addsAll_iff (windows_slice objs) (fun _ _ _ => slice_ok objs _ _) session⟩

/-- One object and the batch size zero. -/
theorem not_addsAll_zero :
    ¬ AddsAll (ε := Empty) (batchSave [()] 0) [] [()] .ok :=
  not_returns_batching (by decide) (by decide) (fun _ _ _ => slice_ok [()] _ _) [] _

end ApiTemplate.Listing.Batches
