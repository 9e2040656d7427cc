import ApiTemplate.Blob.Rows

/-!
# Files of failed uploads

`BlobUploadCommandHandler` deletes the files of an upload after an `Exception` of `create` only. A
failed upload leaves no file in the runs whose steps are all clean (`Upload.IsClean`). A failed
commit is never clean, and a cancellation is clean only while the upload has no file.
-/

namespace ApiTemplate.Blob

open TxStore (Reach Reachable runActions)

/-! ## Failed uploads -/

/-- The handler has ended, and not with `Ok`. -/
def Upload.HasFailed (u : Upload) : Prop := u.phase = .finished .failed ∨ u.awaited = false

/-- No file of a failed upload remains. -/
def System.HasNoOrphan (s : System) : Prop :=
  ∀ i u, s.uploads i = some u → u.HasFailed → ∀ target, u.path target ∉ s.files

/-! ## Clean steps -/

/-- The step leaves no file behind that the clean-up would miss. -/
def Upload.IsClean (u : Upload) (files : Finset String) : UploadAction → Prop
  -- the thread of a cancelled handler does not get to its file
  | .write => u.awaited = true
  -- a part is left of a variant only
  | .writeFails leftover => leftover = true → u.awaited = true ∧ u.phase ≠ .original
  -- no part of a variant was left: the clean-up knows every file
  | .createFails => ∀ p ∈ files, stemOf p = u.stem.text → p ∈ u.holds
  -- nothing is written yet, or everything is unlinked
  | .unlinkFails | .cancel => u.holds = []
  | .commitFails _ => False
  | _ => True

instance (u : Upload) (files : Finset String) : ∀ a, Decidable (u.IsClean files a)
  | .write => inferInstanceAs (Decidable (u.awaited = true))
  | .writeFails leftover =>
    inferInstanceAs (Decidable (leftover = true → u.awaited = true ∧ u.phase ≠ .original))
  | .createFails =>
    inferInstanceAs (Decidable (∀ p ∈ files, stemOf p = u.stem.text → p ∈ u.holds))
  | .unlinkFails | .cancel => inferInstanceAs (Decidable (u.holds = []))
  | .commitFails _ => inferInstanceAs (Decidable False)
  | .create _ | .unlink | .commit | .crash => inferInstanceAs (Decidable True)

/-- A step of an upload is clean. The steps of deletions are free. -/
def System.CleanStep (s : System) : Action → Prop
  | .ofUpload i a => ∀ u ∈ s.uploads i, u.IsClean s.files a
  | _ => True

instance (s : System) : ∀ a, Decidable (s.CleanStep a)
  | .ofUpload i a => inferInstanceAs (Decidable (∀ u ∈ s.uploads i, u.IsClean s.files a))
  | .upload .. | .delete .. | .ofDelete .. => inferInstanceAs (Decidable True)

/-! ## The invariant -/

/-- The upload may have the file in a clean run: its handler waits, and a clean-up knows it. -/
def Upload.MayHave (u : Upload) (p : String) : Prop :=
  u.awaited = true ∧ stripRoot p = p ∧
    match u.phase with
    | .original | .finished .failed => False
    | .cleaning paths => p ∈ paths
    | _ => True

/-- The files have drawn stems, and an upload has only files that it may have. -/
structure System.Tidy (s : System) : Prop where
  drawn : ∀ p ∈ s.files, ∃ stem ∈ s.stems, stemOf p = stem.text
  kept : ∀ i u, s.uploads i = some u → ∀ p ∈ s.files, stemOf p = u.stem.text → u.MayHave p

theorem Upload.not_mayHave_of_hasFailed {u : Upload} {p : String} (h : u.HasFailed) :
    ¬ u.MayHave p := by
  rintro ⟨hawaited, -, hphase⟩
  rcases h with h | h
  · simp [h] at hphase
  · simp [h] at hawaited

theorem System.Tidy.hasNoOrphan {s : System} (h : s.Tidy) : s.HasNoOrphan :=
  fun i u hu hfailed target hfile => Upload.not_mayHave_of_hasFailed hfailed
    (h.kept i u hu _ hfile (u.stemOf_path target))

/-! ## A step of an upload -/

namespace Upload

variable {u u' : Upload} {files files' : Finset String} {rows rows' : List BlobRow}
  {dto : StoredBlobDTO} {p : String}

theorem stripRoot_path (u : Upload) (target : Target) : stripRoot (u.path target) = u.path target :=
  stripRoot_storedPath u.kind u.stem u.extension target

theorem mayHave_afterStore (hawaited : u.awaited = true) (hp : stripRoot p = p) :
    (u.afterStore dto).MayHave p := by
  unfold afterStore
  rw [if_pos hawaited]
  exact ⟨hawaited, hp, trivial⟩

theorem mayHave_afterOriginal (hawaited : u.awaited = true) (hp : stripRoot p = p) :
    u.afterOriginal.MayHave p := by
  unfold afterOriginal
  split
  · exact ⟨hawaited, hp, trivial⟩
  · exact mayHave_afterStore hawaited hp

/-- A file after a failed write is a part, or was there before. -/
theorem mem_spill {target : Target} {leftover : Bool} (h : p ∈ u.spill target leftover files) :
    (p = u.path target ∧ leftover = true) ∨ p ∈ files := by
  unfold spill at h
  split at h
  · rename_i hleftover
    exact (Finset.mem_insert.mp h).imp (fun hp => ⟨hp, hleftover⟩) id
  · exact .inr h

theorem mayHave_write (hawaited : u.awaited = true)
    (h : u.next files rows .write = some (u', files', rows'))
    (hkept : ∀ p ∈ files, stemOf p = u.stem.text → u.MayHave p) :
    ∀ p ∈ files', stemOf p = u.stem.text → u'.MayHave p := by
  obtain ⟨kind, stem, extension, supported, phase, awaited⟩ := u
  intro p hp hstem
  cases phase with
  | original =>
    cases h
    rcases Finset.mem_insert.mp hp with rfl | hp
    · exact mayHave_afterOriginal hawaited (stripRoot_path _ _)
    · exact (hkept p hp hstem).2.2.elim
  | medium =>
    cases h
    rcases Finset.mem_insert.mp hp with rfl | hp
    · exact ⟨hawaited, stripRoot_path _ _, trivial⟩
    · exact ⟨hawaited, (hkept p hp hstem).2.1, trivial⟩
  | thumbnail mediumPath =>
    cases h
    rcases Finset.mem_insert.mp hp with rfl | hp
    · exact mayHave_afterStore hawaited (stripRoot_path _ _)
    · exact mayHave_afterStore hawaited (hkept p hp hstem).2.1
  | _ => cases h

theorem mayHave_writeFails {leftover : Bool}
    (hclean : leftover = true → u.awaited = true ∧ u.phase ≠ .original)
    (h : u.next files rows (.writeFails leftover) = some (u', files', rows'))
    (hkept : ∀ p ∈ files, stemOf p = u.stem.text → u.MayHave p) :
    ∀ p ∈ files', stemOf p = u.stem.text → u'.MayHave p := by
  obtain ⟨kind, stem, extension, supported, phase, awaited⟩ := u
  intro p hp hstem
  cases phase with
  | original =>
    cases h
    rcases mem_spill hp with ⟨-, hleftover⟩ | hp
    · exact absurd rfl (hclean hleftover).2
    · exact (hkept p hp hstem).2.2.elim
  | medium =>
    cases h
    rcases mem_spill hp with ⟨rfl, hleftover⟩ | hp
    · exact ⟨(hclean hleftover).1, stripRoot_path _ _, trivial⟩
    · exact hkept p hp hstem
  | thumbnail mediumPath =>
    cases h
    rcases mem_spill hp with ⟨rfl, hleftover⟩ | hp
    · exact mayHave_afterStore (hclean hleftover).1 (stripRoot_path _ _)
    · exact mayHave_afterStore (hkept p hp hstem).1 (hkept p hp hstem).2.1
  | _ => cases h

/-- An unlinked file is gone from the disk and from the list. -/
theorem mayHave_unlink (h : u.next files rows .unlink = some (u', files', rows'))
    (hkept : ∀ p ∈ files, stemOf p = u.stem.text → u.MayHave p) :
    ∀ p ∈ files', stemOf p = u.stem.text → u'.MayHave p := by
  obtain ⟨kind, stem, extension, supported, phase, awaited⟩ := u
  intro p hp hstem
  cases phase with
  | cleaning paths =>
    cases paths with
    | nil =>
      cases h
      exact absurd (hkept p hp hstem).2.2 List.not_mem_nil
    | cons q paths =>
      cases h
      obtain ⟨hne, hp⟩ := Finset.mem_erase.mp hp
      obtain ⟨hawaited, hroot, hmem⟩ := hkept p hp hstem
      refine ⟨hawaited, hroot, (List.mem_cons.mp hmem).resolve_left ?_⟩
      rintro rfl
      exact hne hroot.symm
  | _ => cases h

/-- An upload that holds nothing has no file when it is cancelled or its clean-up raises. -/
theorem not_mayHave_of_holds_nil {a : UploadAction} (hholds : u.holds = [])
    (ha : a = .unlinkFails ∨ a = .cancel)
    (h : u.next files rows a = some (u', files', rows')) : files' = files ∧ ∀ p, ¬ u.MayHave p := by
  obtain ⟨kind, stem, extension, supported, phase, awaited⟩ := u
  cases phase with
  | original =>
    refine ⟨?_, fun p hp => hp.2.2⟩
    rcases ha with rfl | rfl <;> cases awaited <;> cases h
    rfl
  | cleaning paths =>
    obtain rfl : paths = [] := hholds
    refine ⟨?_, fun p hp => List.not_mem_nil hp.2.2⟩
    rcases ha with rfl | rfl <;> cases awaited <;> cases h <;> rfl
  | finished outcome | crashed => rcases ha with rfl | rfl <;> cases h
  | _ => cases hholds

/-- After a clean step an upload has only files that it may have. -/
theorem mayHave_next {a : UploadAction} (hclean : u.IsClean files a)
    (h : u.next files rows a = some (u', files', rows'))
    (hkept : ∀ p ∈ files, stemOf p = u.stem.text → u.MayHave p) :
    ∀ p ∈ files', stemOf p = u.stem.text → u'.MayHave p := by
  cases a with
  | write => exact mayHave_write hclean h hkept
  | writeFails leftover => exact mayHave_writeFails hclean h hkept
  | unlink => exact mayHave_unlink h hkept
  | create id | commit =>
    obtain ⟨kind, stem, extension, supported, phase, awaited⟩ := u
    cases phase <;> cases h
    exact hkept
  | createFails =>
    obtain ⟨kind, stem, extension, supported, phase, awaited⟩ := u
    cases phase <;> cases h
    intro p hp hstem
    obtain ⟨hawaited, hroot, -⟩ := hkept p hp hstem
    exact ⟨hawaited, hroot, hclean p hp hstem⟩
  | commitFails durable => exact hclean.elim
  | unlinkFails | cancel =>
    obtain ⟨rfl, hno⟩ := not_mayHave_of_holds_nil hclean (by simp) h
    exact fun p hp hstem => absurd (hkept p hp hstem) (hno p)
  | crash =>
    obtain ⟨kind, stem, extension, supported, phase, awaited⟩ := u
    intro p hp hstem
    cases phase <;> cases h
    all_goals
      obtain ⟨hawaited, hroot, hmay⟩ := hkept p hp hstem
      exact ⟨hawaited, hroot, trivial⟩

/-- A step of an upload adds no file of another one. -/
theorem Effect.mem_files (h : u.Effect u' files rows files' rows') (hp : p ∈ files') :
    p ∈ files ∨ stemOf p = u.stem.text := by
  cases h with
  | quiet hopen hlive hholds => exact .inl hp
  | writes target hlive hholds =>
    rcases Finset.mem_insert.mp hp with rfl | hp
    · exact .inr (u.stemOf_path target)
    · exact .inl hp
  | unlinks q hq hopen hlive hclean hholds => exact .inl (Finset.mem_of_mem_erase hp)
  | inserts row hrow hlive hclosed hholds => exact .inl hp

end Upload

/-- A deletion adds no file. -/
theorem Delete.Effect.files_subset {d d' : Delete} {files files' : Finset String}
    {rows rows' : List BlobRow} (h : d.Effect d' files rows files' rows') : files' ⊆ files := by
  cases h with
  | quiet hunlinking hholds => exact subset_rfl
  | reads hunlinking hholds => exact subset_rfl
  | deletes hholds => exact subset_rfl
  | unlinks p hp hunlinking hholds => exact Finset.erase_subset _ _

/-! ## Every clean run -/

theorem tidy_start : ({} : System).Tidy where
  drawn p hp := absurd hp (Finset.notMem_empty p)
  kept _ u hu := absurd hu (Option.some_ne_none u).symm

namespace System.Tidy

variable {s s' : System} {lower : String → String}

/-- A clean step keeps the files of failed uploads away. -/
theorem step (h : s.Tidy) (hsound : s.Sound) {a : Action} (hclean : s.CleanStep a)
    (hs : s.step lower a = some s') : s'.Tidy := by
  obtain rfl | ⟨i, u, -, hfresh, -, rfl⟩ | ⟨i, b, u, u', files, rows, rfl, hu, hnext, rfl⟩ |
    ⟨j, id, -, rfl⟩ | ⟨j, b, d, d', files, rows, hd, hnext, rfl⟩ := System.step_cases hs
  · exact h
  · constructor
    · intro p hp
      obtain ⟨stem, hdrawn, hp⟩ := h.drawn p hp
      exact ⟨stem, List.mem_cons_of_mem _ hdrawn, hp⟩
    · intro k v hv p hp hstem
      rcases System.uploads_setUpload.mp hv with ⟨-, rfl⟩ | ⟨-, hv⟩
      · -- the stem is fresh, so no file has it
        obtain ⟨stem, hdrawn, hp⟩ := h.drawn p hp
        obtain rfl : stem = v.stem := Stem.ext (hp.symm.trans hstem)
        exact absurd hdrawn hfresh
      · exact h.kept k v hv p hp hstem
  · obtain ⟨hsame, heffect⟩ := Upload.effect_of_next hnext
    constructor
    · intro p hp
      rcases heffect.mem_files hp with hp | hp
      · exact h.drawn p hp
      · exact ⟨u.stem, hsound.drawn i u hu, hp⟩
    · intro k v hv p hp hstem
      rcases System.uploads_setUpload.mp hv with ⟨-, rfl⟩ | ⟨hne, hv⟩
      · exact Upload.mayHave_next (hclean u hu) hnext (h.kept i u hu) p hp (hsame ▸ hstem)
      · refine h.kept k v hv p ((heffect.mem_files hp).resolve_right fun hp => ?_) hstem
        exact hne (hsound.apart k i v u hv hu (Stem.ext (hstem.symm.trans hp)))
  · exact ⟨h.drawn, h.kept⟩
  · have hsubset := (Delete.effect_of_next hnext).2.files_subset
    exact ⟨fun p hp => h.drawn p (hsubset hp), fun k v hv p hp => h.kept k v hv p (hsubset hp)⟩

end System.Tidy

/-- **In a run of clean steps, no file of a failed upload remains**, whatever the interleaving. -/
theorem hasNoOrphan_of_clean (lower : String → String) (s : System)
    (h : Reach (System.step lower) System.CleanStep {} s) : s.HasNoOrphan := by
  have hboth : s.Sound ∧ s.Tidy := by
    refine Reach.invariant (P := fun s => s.Sound ∧ s.Tidy) h ⟨sound_start, tidy_start⟩ ?_
    rintro s₁ a s₂ ⟨hsound, htidy⟩ hclean hs
    exact ⟨hsound.step hs, htidy.step hsound hclean hs⟩
  exact hboth.2.hasNoOrphan

/-- An image, whose thumbnail fails, is cleaned up after an error of `create`. Beside it a text is
uploaded and deleted, and a third upload is cancelled before its file. -/
def cleanedUpload : List Action :=
  [.upload 0 photoStem [0xFF, 0xD8, 0xFF, 0xE0] "photo.jpg" .image,
   .upload 1 notesStem [0x61] "notes.txt" .raw, .ofUpload 0 .write, .ofUpload 1 .write,
   .ofUpload 0 .write, .ofUpload 0 (.writeFails false), .ofUpload 1 (.create 1),
   .ofUpload 0 .createFails, .ofUpload 1 .commit, .ofUpload 0 .unlink, .ofUpload 0 .unlink,
   .ofUpload 0 .unlink]

theorem hasNoOrphan_cleanedUpload : ∃ s, Reach (System.step id) System.CleanStep {} s ∧
    ((s.uploads 0).map Upload.phase = some (.finished .failed) ∧
      s.files = {"files/0199c1a0-0000-7000-8000-000000000002.txt"}) ∧ s.HasNoOrphan := by
  have hrun : (runActions (System.step id) System.CleanStep {} cleanedUpload).map (fun s =>
      ((s.uploads 0).map Upload.phase, s.files)) = some (some (.finished .failed),
        {"files/0199c1a0-0000-7000-8000-000000000002.txt"}) := by decide +kernel
  obtain ⟨s, hs, hend⟩ := Option.map_eq_some_iff.mp hrun
  have hreach := Reach.of_runActions hs
  exact ⟨s, hreach, ⟨congrArg Prod.fst hend, congrArg Prod.snd hend⟩,
    hasNoOrphan_of_clean id s hreach⟩

/-! ## Steps that are not clean -/

/-- An upload that fails without a clean-up leaves its file. -/
theorem orphan_of_finish {lower : String → String} {s : System} {i : ℕ} {u : Upload}
    {a : UploadAction} (hu : s.uploads i = some u) (hfile : u.path .original ∈ s.files)
    (hnext : u.next s.files s.rows a = some (u.finish .failed, s.files, s.rows)) :
    ∃ s', s.step lower (.ofUpload i a) = some s' ∧ s'.rows = s.rows ∧ ¬ s'.HasNoOrphan := by
  refine ⟨s.setUpload i (u.finish .failed), ?_, rfl, fun h => ?_⟩
  · unfold System.step
    simp only [hu, hnext, Option.bind_some, Option.map_some]
    rfl
  · exact h i _ (System.uploads_setUpload.mpr (.inl ⟨rfl, rfl⟩)) (.inl rfl) .original hfile

/-- A text is uploaded up to its commit. -/
def uncommittedUpload : List Action :=
  [.upload 0 notesStem [0x61] "notes.txt" .raw, .ofUpload 0 .write, .ofUpload 0 (.create 1)]

/-- When the commit fails, and when the handler is cancelled in front of it, the file remains and no
row has it. -/
theorem not_hasNoOrphan : ∃ s, Reachable (System.step id) {} s ∧ s.rows = [] ∧
    (∃ s', s.step id (.ofUpload 0 (.commitFails false)) = some s' ∧ s'.rows = s.rows ∧
      ¬ s'.HasNoOrphan) ∧
    ∃ s', s.step id (.ofUpload 0 .cancel) = some s' ∧ s'.rows = s.rows ∧ ¬ s'.HasNoOrphan := by
  have hrun : (runActions (System.step id) (fun _ _ => True) {} uncommittedUpload).map (fun s =>
      (s.rows, s.files, (s.uploads 0).map fun u => (u.phase, u.path .original))) =
        some ([], {notesRow.path}, some (.created 1 notesRow.toStoredBlobDTO, notesRow.path)) := by
    decide +kernel
  obtain ⟨s, hs, hend⟩ := Option.map_eq_some_iff.mp hrun
  obtain ⟨hrows, hrest⟩ := Prod.ext_iff.mp hend
  obtain ⟨hfiles, hupload⟩ := Prod.ext_iff.mp hrest
  obtain ⟨u, hu, hlast⟩ := Option.map_eq_some_iff.mp hupload
  have hphase : u.phase = .created 1 notesRow.toStoredBlobDTO := congrArg Prod.fst hlast
  have hpath : u.path .original = notesRow.path := congrArg Prod.snd hlast
  have hfile : u.path .original ∈ s.files := by
    rw [show s.files = {notesRow.path} from hfiles, hpath]
    exact Finset.mem_singleton_self _
  refine ⟨s, Reach.of_runActions hs, hrows, orphan_of_finish hu hfile ?_,
    orphan_of_finish hu hfile ?_⟩ <;> simp [Upload.next, hphase]

end ApiTemplate.Blob
