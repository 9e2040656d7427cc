import ApiTemplate.Blob.Storage
import ApiTemplate.TxStore.Transition
import Mathlib.Data.Finset.Basic

/-!
# Uploads and deletions

`BlobUploadCommandHandler` and `BlobDeleteCommandHandler` as processes over the files of the media
root and the committed rows. Every step that touches a file or the database may fail; a call of
`asyncio.to_thread` goes on after the handler is cancelled; and a process may crash between any two
steps.
-/

namespace ApiTemplate.Blob

open TxStore (Reach)

/-! ## Rows -/

structure StoredBlobDTO where
  path : String
  mediumPath : Option String := none
  thumbnailPath : Option String := none
  deriving DecidableEq

/-- The paths that are not null. -/
def StoredBlobDTO.paths (dto : StoredBlobDTO) : List String :=
  dto.path :: (dto.mediumPath.toList ++ dto.thumbnailPath.toList)

/-- A committed row of `BlobObjectOrmModel`. -/
structure BlobRow extends StoredBlobDTO where
  id : ℕ
  deriving DecidableEq

/-- `get_paths` -/
def getPaths (rows : List BlobRow) (id : ℕ) : List String :=
  match rows.find? (·.id = id) with
  | none => []
  | some row => row.paths.filter (· ≠ "")

/-! ## Uploads -/

inductive Outcome
  | ok
  | failed
  deriving DecidableEq

/-- How far an upload is. -/
inductive UploadPhase
  /-- `_store_sync` is about to write the file -/
  | original
  | medium
  | thumbnail (mediumPath : Option String)
  /-- `store` has returned -/
  | stored (dto : StoredBlobDTO)
  /-- `create` has flushed the row -/
  | created (id : ℕ) (dto : StoredBlobDTO)
  /-- `_delete_sync` after an exception of `create` -/
  | cleaning (paths : List String)
  | finished (outcome : Outcome)
  | crashed
  deriving DecidableEq

/-- An upload that the validator has admitted. `awaited` says that the handler waits for its
thread. -/
structure Upload where
  kind : BlobKindEnum
  stem : Stem
  extension : String
  supported : extension ∈ kind.extensions
  phase : UploadPhase := .original
  awaited : Bool := true

inductive UploadAction
  /-- the next file is written -/
  | write
  /-- an exception before or in `write_bytes`, which may leave a part of the file -/
  | writeFails (leftover : Bool)
  | create (id : ℕ)
  /-- an `Exception` of `create` -/
  | createFails
  /-- the next file is unlinked, or there is none -/
  | unlink
  | unlinkFails
  | commit
  /-- an exception or a cancellation in `commit`, which may have taken effect -/
  | commitFails (durable : Bool)
  | cancel
  | crash
  deriving DecidableEq

namespace Upload

/-- The path of a file of the upload. -/
def path (u : Upload) (target : Target) : String := storedPath u.kind u.stem u.extension target

/-- `store` is done: the handler goes on, unless it was cancelled. -/
def afterStore (u : Upload) (dto : StoredBlobDTO) : Upload :=
  { u with phase := if u.awaited then .stored dto else .finished .failed }

/-- The end of the variants of an image. -/
def afterThumbnail (u : Upload) (mediumPath thumbnailPath : Option String) : Upload :=
  u.afterStore { path := u.path .original, mediumPath, thumbnailPath }

/-- The original is written. -/
def afterOriginal (u : Upload) : Upload :=
  match u.kind with
  | .image => { u with phase := .medium }
  | .raw => u.afterStore { path := u.path .original }

def finish (u : Upload) (outcome : Outcome) : Upload := { u with phase := .finished outcome }

/-- The files after a failed write. -/
def spill (u : Upload) (target : Target) (leftover : Bool) (files : Finset String) :
    Finset String :=
  if leftover then insert (u.path target) files else files

/-- One step of an upload, with the files and the committed rows after it. -/
def next (u : Upload) (files : Finset String) (rows : List BlobRow) :
    UploadAction → Option (Upload × Finset String × List BlobRow)
  | .write =>
    match u.phase with
    | .original => some (u.afterOriginal, insert (u.path .original) files, rows)
    | .medium =>
      some ({ u with phase := .thumbnail (some (u.path .medium)) },
        insert (u.path .medium) files, rows)
    | .thumbnail mediumPath =>
      some (u.afterThumbnail mediumPath (some (u.path .thumbnail)),
        insert (u.path .thumbnail) files, rows)
    | _ => none
  | .writeFails leftover =>
    match u.phase with
    | .original => some (u.finish .failed, u.spill .original leftover files, rows)
    -- a variant that fails is left out
    | .medium =>
      some ({ u with phase := .thumbnail none }, u.spill .medium leftover files, rows)
    | .thumbnail mediumPath =>
      some (u.afterThumbnail mediumPath none, u.spill .thumbnail leftover files, rows)
    | _ => none
  | .create id =>
    match u.phase with
    | .stored dto => some ({ u with phase := .created id dto }, files, rows)
    | _ => none
  | .createFails =>
    match u.phase with
    | .stored dto => some ({ u with phase := .cleaning dto.paths }, files, rows)
    | _ => none
  | .unlink =>
    match u.phase with
    | .cleaning [] => some (u.finish .failed, files, rows)
    | .cleaning (p :: paths) =>
      some ({ u with phase := .cleaning paths }, files.erase (stripRoot p), rows)
    | _ => none
  | .unlinkFails =>
    match u.phase with
    | .cleaning _ => some (u.finish .failed, files, rows)
    | _ => none
  | .commit =>
    match u.phase with
    | .created id dto => some (u.finish .ok, files, rows ++ [{ dto with id }])
    | _ => none
  | .commitFails durable =>
    match u.phase with
    | .created id dto =>
      some (u.finish .failed, files, if durable then rows ++ [{ dto with id }] else rows)
    | _ => none
  | .cancel =>
    match u.phase with
    -- the thread goes on
    | .original | .medium | .thumbnail _ | .cleaning _ =>
      if u.awaited then some ({ u with awaited := false }, files, rows) else none
    -- `CancelledError` is no `Exception`
    | .stored _ | .created _ _ => some (u.finish .failed, files, rows)
    | _ => none
  | .crash =>
    match u.phase with
    | .finished _ | .crashed => none
    | _ => some ({ u with phase := .crashed }, files, rows)

end Upload

/-! ## Deletions -/

inductive DeletePhase
  | validating
  | reading
  /-- `get_paths` has returned -/
  | deleting (paths : List String)
  /-- the row is deleted, and the transaction is open -/
  | deleted (paths : List String)
  /-- `_delete_sync` after the commit -/
  | unlinking (paths : List String)
  | finished
  deriving DecidableEq

structure Delete where
  id : ℕ
  phase : DeletePhase := .validating
  deriving DecidableEq

inductive DeleteAction
  | validate
  | getPaths
  | delete
  | commit
  /-- an exception or a cancellation in `commit`, which may have taken effect -/
  | commitFails (durable : Bool)
  /-- the next file is unlinked, or there is none -/
  | unlink
  /-- an exception, a cancellation or a crash -/
  | fail
  deriving DecidableEq

/-- `delete` of the row, once it is committed -/
def deleteRow (rows : List BlobRow) (id : ℕ) : List BlobRow := rows.filter (·.id ≠ id)

/-- One step of a deletion, with the files and the committed rows after it. -/
def Delete.next (d : Delete) (files : Finset String) (rows : List BlobRow) :
    DeleteAction → Option (Delete × Finset String × List BlobRow)
  | .validate =>
    match d.phase with
    | .validating =>
      some ({ d with phase := if rows.any (·.id = d.id) then .reading else .finished },
        files, rows)
    | _ => none
  | .getPaths =>
    match d.phase with
    | .reading => some ({ d with phase := .deleting (Blob.getPaths rows d.id) }, files, rows)
    | _ => none
  | .delete =>
    match d.phase with
    | .deleting paths => some ({ d with phase := .deleted paths }, files, rows)
    | _ => none
  | .commit =>
    match d.phase with
    | .deleted paths => some ({ d with phase := .unlinking paths }, files, deleteRow rows d.id)
    | _ => none
  | .commitFails durable =>
    match d.phase with
    | .deleted _ =>
      some ({ d with phase := .finished }, files, if durable then deleteRow rows d.id else rows)
    | _ => none
  | .unlink =>
    match d.phase with
    | .unlinking [] => some ({ d with phase := .finished }, files, rows)
    | .unlinking (p :: paths) =>
      some ({ d with phase := .unlinking paths }, files.erase (stripRoot p), rows)
    | _ => none
  | .fail => if d.phase = .finished then none else some ({ d with phase := .finished }, files, rows)

/-! ## The system -/

/-- The files of the media root, the committed rows, the handlers that have been called, and the
stems that have been drawn. -/
structure System where
  files : Finset String := ∅
  rows : List BlobRow := []
  uploads : ℕ → Option Upload := fun _ => none
  deletes : ℕ → Option Delete := fun _ => none
  stems : List Stem := []

inductive Action
  /-- a call of `BlobUploadCommandHandler`, in which `uuid7()` is `stem` -/
  | upload (i : ℕ) (stem : Stem) (content : Content) (name : String) (kind : BlobKindEnum)
  | ofUpload (i : ℕ) (a : UploadAction)
  /-- a call of `BlobDeleteCommandHandler` -/
  | delete (j : ℕ) (id : ℕ)
  | ofDelete (j : ℕ) (a : DeleteAction)

namespace System

def setUpload (s : System) (i : ℕ) (u : Upload) : System :=
  { s with uploads := Function.update s.uploads i (some u) }

def setDelete (s : System) (j : ℕ) (d : Delete) : System :=
  { s with deletes := Function.update s.deletes j (some d) }

/-- One step of the system. The stems are fresh. -/
def step (lower : String → String) (s : System) : Action → Option System
  | .upload i stem content name kind =>
    if h : BlobUploadValidator.call lower content name kind = .ok () then
      if s.uploads i = none ∧ stem ∉ s.stems then
        let u : Upload :=
          { kind, stem, extension := extensionOf lower "bin" name,
            supported := extension_of_call h "bin" }
        some { s.setUpload i u with stems := stem :: s.stems }
      else none
    else some s
  | .ofUpload i a =>
    (s.uploads i).bind fun u => (u.next s.files s.rows a).map fun (u', files, rows) =>
      { s.setUpload i u' with files, rows }
  | .delete j id => if s.deletes j = none then some (s.setDelete j { id }) else none
  | .ofDelete j a =>
    (s.deletes j).bind fun d => (d.next s.files s.rows a).map fun (d', files, rows) =>
      { s.setDelete j d' with files, rows }

end System

end ApiTemplate.Blob
