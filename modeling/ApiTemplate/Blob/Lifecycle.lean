import ApiTemplate.Blob.Orphans

/-!
# The life of a blob

An upload that has been answered stays: its row and its files are there, and nobody writes to them,
until a deletion of this very blob is committed. A deletion that runs to its end is final: none of
the files is left, and none comes back. Both hold whatever other handlers do and however they fail.
-/

namespace ApiTemplate.Blob

open TxStore (Reach Reachable runActions)

variable {lower : String → String} {s s' : System} {a : Action}

/-! ## Kept until deleted -/

/-- The action does not commit a deletion of the blob. -/
def System.Spares (id : ℕ) (s : System) : Action → Prop
  | .ofDelete j a => ∀ d ∈ s.deletes j, d.id = id → a ≠ .commit ∧ a ≠ .commitFails true
  | _ => True

instance (id : ℕ) (s : System) : (a : Action) → Decidable (s.Spares id a)
  | .ofDelete j a =>
    inferInstanceAs (Decidable (∀ d ∈ s.deletes j, d.id = id → a ≠ .commit ∧ a ≠ .commitFails true))
  | .upload .. | .ofUpload .. | .delete .. => inferInstanceAs (Decidable True)

theorem Upload.Effect.rows_subset {u u' : Upload} {files files' : Finset String}
    {rows rows' : List BlobRow} (h : u.Effect u' files rows files' rows') {r : BlobRow}
    (hr : r ∈ rows) : r ∈ rows' := by
  cases h with
  | quiet | writes | unlinks => exact hr
  | inserts => exact List.mem_append_left _ hr

/-- Only a commit takes rows away. -/
theorem Delete.rows_of_next {d d' : Delete} {files files' : Finset String}
    {rows rows' : List BlobRow} {a : DeleteAction}
    (h : d.next files rows a = some (d', files', rows')) :
    rows' = rows ∨ (a = .commit ∨ a = .commitFails true) ∧ rows' = deleteRow rows d.id := by
  obtain ⟨id, phase⟩ := d
  cases a with
  | commit =>
    cases phase <;> cases h
    exact .inr ⟨.inl rfl, rfl⟩
  | commitFails durable =>
    cases phase <;> cases durable <;> cases h
    · exact .inl rfl
    · exact .inr ⟨.inr rfl, rfl⟩
  | unlink =>
    cases phase with
    | unlinking paths => cases paths <;> cases h <;> exact .inl rfl
    | _ => cases h
  | fail => cases phase <;> cases h <;> exact .inl rfl
  | validate | getPaths | delete =>
    cases phase <;> cases h
    exact .inl rfl

/-- A row stays in every step that spares it. -/
theorem mem_rows_of_spares {r : BlobRow} (hr : r ∈ s.rows) (hok : s.Spares r.id a)
    (hs : s.step lower a = some s') : r ∈ s'.rows := by
  cases a with
  | upload i stem content name kind =>
    unfold System.step at hs
    dsimp only at hs
    split at hs
    · obtain ⟨-, hs⟩ := Option.ite_none_right_eq_some.mp hs
      obtain rfl := Option.some.inj hs
      exact hr
    · obtain rfl := Option.some.inj hs
      exact hr
  | ofUpload i b =>
    obtain ⟨u, -, hs⟩ := Option.bind_eq_some_iff.mp hs
    obtain ⟨⟨u', files, rows⟩, hnext, rfl⟩ := Option.map_eq_some_iff.mp hs
    exact (Upload.effect_of_next hnext).2.rows_subset hr
  | delete j id =>
    obtain ⟨-, hs⟩ := Option.ite_none_right_eq_some.mp hs
    obtain rfl := Option.some.inj hs
    exact hr
  | ofDelete j b =>
    obtain ⟨d, hd, hs⟩ := Option.bind_eq_some_iff.mp hs
    obtain ⟨⟨d', files, rows⟩, hnext, rfl⟩ := Option.map_eq_some_iff.mp hs
    show r ∈ rows
    rcases Delete.rows_of_next hnext with rfl | ⟨hcommit, rfl⟩
    · exact hr
    · refine List.mem_filter.mpr ⟨hr, decide_eq_true fun hid => ?_⟩
      obtain ⟨hno, hnot⟩ := hok d hd hid.symm
      exact hcommit.elim hno hnot

/-- The row of an upload, once it is committed. -/
theorem mem_rows_of_commit {i id : ℕ} {u : Upload} {dto : StoredBlobDTO}
    (hu : s.uploads i = some u) (hphase : u.phase = .created id dto)
    (hs : s.step lower (.ofUpload i .commit) = some s') :
    ({ dto with id } : BlobRow) ∈ s'.rows := by
  obtain ⟨v, hv, hs⟩ := Option.bind_eq_some_iff.mp hs
  obtain rfl : u = v := Option.some.inj (hu.symm.trans hv)
  obtain ⟨⟨u', files, rows⟩, hnext, rfl⟩ := Option.map_eq_some_iff.mp hs
  simp only [Upload.next, hphase] at hnext
  cases hnext
  exact List.mem_append_right _ (List.mem_singleton_self _)

/-- **An upload that has been answered stays** until a deletion of its id is committed: its row and
all of its files are there, and no upload that still runs writes to one of them. -/
theorem upload_stays (lower : String → String) {s s₁ s₂ : System} {i id : ℕ} {u : Upload}
    {dto : StoredBlobDTO} (h : Reachable (System.step lower) {} s) (hu : s.uploads i = some u)
    (hphase : u.phase = .created id dto)
    (hcommit : s.step lower (.ofUpload i .commit) = some s₁)
    (hrun : Reach (System.step lower) (System.Spares id) s₁ s₂) :
    ({ dto with id } : BlobRow) ∈ s₂.rows ∧ (∀ p ∈ dto.paths, p ∈ s₂.files) ∧
      ∀ k v, s₂.uploads k = some v → v.IsOpen → ∀ target, v.path target ∉ dto.paths := by
  have hsound : s₂.Sound := hrun.invariant ((sound_of_reachable h).step hcommit)
    fun _ _ _ hsound _ hs => hsound.step hs
  have hrow : ({ dto with id } : BlobRow) ∈ s₂.rows :=
    hrun.invariant (P := fun s => _ ∈ s.rows) (mem_rows_of_commit hu hphase hcommit)
      fun _ _ _ hr hok hs => mem_rows_of_spares hr hok hs
  refine ⟨hrow, hsound.present _ hrow, fun k v hv hopen target hmem => ?_⟩
  obtain ⟨stem, -, hstem⟩ := hsound.named _ hrow
  refine hsound.unclaimed k v hv hopen _ hrow ?_
  rw [hstem _ (BlobRow.toStoredBlobDTO _).path_mem_paths, ← hstem _ hmem, v.stemOf_path]

/-- A text is uploaded up to its commit, while an image is deleted. -/
def notesCreated : List Action :=
  [.upload 0 photoStem [0xFF, 0xD8, 0xFF, 0xE0] "photo.jpg" .image, .ofUpload 0 .write,
   .upload 1 notesStem [0x61] "notes.txt" .raw, .ofUpload 0 .write, .ofUpload 0 .write,
   .ofUpload 1 .write, .ofUpload 0 (.create 1), .ofUpload 1 (.create 2), .ofUpload 0 .commit,
   .delete 0 1, .ofDelete 0 .validate, .ofDelete 0 .getPaths, .ofDelete 0 .delete]

/-- The image goes, and the deletion of the text is rolled back. -/
def photoDeleted : List Action :=
  [.delete 1 2, .ofDelete 0 .commit, .ofDelete 1 .validate, .ofDelete 1 .getPaths,
   .ofDelete 0 .unlink, .ofDelete 1 .delete, .ofDelete 0 .unlink, .ofDelete 0 .unlink,
   .ofDelete 1 (.commitFails false), .ofDelete 0 .unlink]

theorem upload_stays_notes : ∃ s, Reachable (System.step id) {} s ∧
    notesRow ∈ s.rows ∧ (∀ p ∈ notesRow.paths, p ∈ s.files) ∧
      ∀ k v, s.uploads k = some v → v.IsOpen → ∀ target, v.path target ∉ notesRow.paths := by
  have hrun : ((runActions (System.step id) (fun _ _ => True) {} notesCreated).bind fun s =>
      (s.step id (.ofUpload 1 .commit)).bind fun s₁ =>
        (runActions (System.step id) (System.Spares 2) s₁ photoDeleted).map fun _ =>
          (s.uploads 1).map Upload.phase) =
        some (some (.created 2 notesRow.toStoredBlobDTO)) := by decide +kernel
  obtain ⟨s, hs, hrun⟩ := Option.bind_eq_some_iff.mp hrun
  obtain ⟨s₁, hcommit, hrun⟩ := Option.bind_eq_some_iff.mp hrun
  obtain ⟨s₂, hs₂, hphase⟩ := Option.map_eq_some_iff.mp hrun
  obtain ⟨u, hu, hphase⟩ := Option.map_eq_some_iff.mp hphase
  have hreach := Reach.of_runActions hs
  have hlater := Reach.of_runActions hs₂
  refine ⟨s₂, (hreach.tail trivial hcommit).trans (hlater.imp fun _ _ _ => trivial), ?_⟩
  exact upload_stays id hreach hu hphase hcommit hlater

/-! ## Stems that are done -/

/-- Nobody writes files of the stem any more. -/
structure System.Done (s : System) (text : String) : Prop where
  drawn : ∃ stem ∈ s.stems, stem.text = text
  closed : ∀ i u, s.uploads i = some u → u.IsOpen → u.stem.text ≠ text

/-- A step adds no file and no row of a stem that is done. -/
structure System.Shrinks (s s' : System) (text : String) : Prop where
  done : s'.Done text
  files : ∀ p ∈ s'.files, stemOf p = text → p ∈ s.files
  rows : ∀ r ∈ s'.rows, stemOf r.path = text → r ∈ s.rows

theorem Upload.Effect.isOpen {u u' : Upload} {files files' : Finset String}
    {rows rows' : List BlobRow} (h : u.Effect u' files rows files' rows') (hopen : u'.IsOpen) :
    u.IsOpen := by
  cases h with
  | quiet h => exact h hopen
  | writes _ hlive => exact hlive.isOpen
  | unlinks _ _ h => exact h
  | inserts _ _ hlive => exact hlive.isOpen

theorem System.Done.shrinks {text : String} (h : s.Done text) (hsound : s.Sound)
    (hs : s.step lower a = some s') : s.Shrinks s' text := by
  obtain rfl | ⟨i, u, -, hfresh, -, rfl⟩ | ⟨i, b, u, u', files, rows, -, hu, hnext, rfl⟩ |
    ⟨j, id, -, rfl⟩ | ⟨j, b, d, d', files, rows, -, hnext, rfl⟩ := System.step_cases hs
  · exact ⟨h, fun _ hp _ => hp, fun _ hr _ => hr⟩
  · obtain ⟨stem, hstem, rfl⟩ := h.drawn
    refine ⟨⟨⟨stem, List.mem_cons_of_mem _ hstem, rfl⟩, fun k v hv hopen heq => ?_⟩,
      fun _ hp _ => hp, fun _ hr _ => hr⟩
    rcases System.uploads_setUpload.mp hv with ⟨-, rfl⟩ | ⟨-, hv⟩
    · exact hfresh (Stem.ext heq ▸ hstem)
    · exact h.closed k v hv hopen heq
  · obtain ⟨hstem, heffect⟩ := Upload.effect_of_next hnext
    have hclosed : u.IsOpen → u.stem.text ≠ text := h.closed i u hu
    refine ⟨⟨h.drawn, fun k v hv hopen => ?_⟩, fun p hp htext => ?_, fun r hr htext => ?_⟩
    · rcases System.uploads_setUpload.mp hv with ⟨-, rfl⟩ | ⟨-, hv⟩
      · exact hstem ▸ hclosed (heffect.isOpen hopen)
      · exact h.closed k v hv hopen
    · cases heffect with
      | quiet | inserts => exact hp
      | unlinks => exact Finset.mem_of_mem_erase hp
      | writes target hlive =>
        refine (Finset.mem_insert.mp hp).resolve_left ?_
        rintro rfl
        exact hclosed hlive.isOpen ((u.stemOf_path target).symm.trans htext)
    · cases heffect with
      | quiet | writes | unlinks => exact hr
      | inserts row hrow hlive =>
        refine (List.mem_append.mp hr).resolve_right fun hmem => ?_
        obtain rfl := List.mem_singleton.mp hmem
        have hown := (hsound.held i u hu _ (hrow _ r.path_mem_paths)).1
        exact hclosed hlive.isOpen (hown.symm.trans htext)
  · exact ⟨⟨h.drawn, h.closed⟩, fun _ hp _ => hp, fun _ hr _ => hr⟩
  · refine ⟨⟨h.drawn, h.closed⟩, fun p hp _ => ?_, fun r hr _ => ?_⟩
    · cases (Delete.effect_of_next hnext).2 with
      | quiet | reads | deletes => exact hp
      | unlinks => exact Finset.mem_of_mem_erase hp
    · rcases Delete.rows_of_next hnext with rfl | ⟨-, rfl⟩
      · exact hr
      · exact List.mem_of_mem_filter hr

/-- The stem of a row is done: its upload has ended. -/
theorem System.Sound.done (h : s.Sound) {r : BlobRow} (hr : r ∈ s.rows) :
    s.Done (stemOf r.path) := by
  obtain ⟨stem, hstem, hpaths⟩ := h.named r hr
  exact ⟨⟨stem, hstem, (hpaths _ r.path_mem_paths).symm⟩,
    fun i u hu hopen => (h.unclaimed i u hu hopen r hr).symm⟩

/-! ## Paths as they are stored -/

/-- The path is not empty, and `delete` unlinks the file that `store` has written. -/
def IsStored (p : String) : Prop := p ≠ "" ∧ stripRoot p = p

theorem Upload.isStored_path (u : Upload) (target : Target) : IsStored (u.path target) := by
  refine ⟨fun h => ?_, u.stripRoot_path target⟩
  have hlength := congrArg (fun p => p.toList.length) h
  unfold Upload.path storedPath at hlength
  cases target <;> simp [String.toList_append] at hlength

/-- All paths that the rows and the handlers have are stored paths. -/
structure System.Stored (s : System) : Prop where
  rows : ∀ r ∈ s.rows, ∀ p ∈ r.paths, IsStored p
  uploads : ∀ i u, s.uploads i = some u → ∀ p ∈ u.holds, IsStored p

theorem System.Stored.step (h : s.Stored) (hs : s.step lower a = some s') : s'.Stored := by
  obtain rfl | ⟨i, u, -, -, hphase, rfl⟩ | ⟨i, b, u, u', files, rows, -, hu, hnext, rfl⟩ |
    ⟨j, id, -, rfl⟩ | ⟨j, b, d, d', files, rows, -, hnext, rfl⟩ := System.step_cases hs
  · exact h
  · refine ⟨h.rows, fun k v hv p hp => ?_⟩
    rcases System.uploads_setUpload.mp hv with ⟨-, rfl⟩ | ⟨-, hv⟩
    · rw [Upload.holds_of_original hphase] at hp
      exact absurd hp List.not_mem_nil
    · exact h.uploads k v hv p hp
  · have hown := h.uploads i u hu
    have heffect := (Upload.effect_of_next hnext).2
    refine ⟨fun r hr p hp => ?_, fun k v hv p hp => ?_⟩
    · cases heffect with
      | quiet | writes | unlinks => exact h.rows r hr p hp
      | inserts row hrow =>
        rcases List.mem_append.mp hr with hr | hr
        · exact h.rows r hr p hp
        · obtain rfl := List.mem_singleton.mp hr
          exact hown p (hrow p hp)
    · rcases System.uploads_setUpload.mp hv with ⟨-, rfl⟩ | ⟨-, hv⟩
      · cases heffect with
        | quiet _ _ hholds => exact hown p (hholds p hp)
        | unlinks _ _ _ _ _ hholds => exact hown p (hholds p hp)
        | inserts _ _ _ _ hholds =>
          rw [hholds] at hp
          exact absurd hp List.not_mem_nil
        | writes target _ hholds =>
          rcases hholds p hp with rfl | hp
          · exact u.isStored_path target
          · exact hown p hp
      · exact h.uploads k v hv p hp
  · exact ⟨h.rows, h.uploads⟩
  · refine ⟨fun r hr => ?_, h.uploads⟩
    rcases Delete.rows_of_next hnext with rfl | ⟨-, rfl⟩
    · exact h.rows r hr
    · exact h.rows r (List.mem_of_mem_filter hr)

theorem stored_of_reachable (h : Reachable (System.step lower) {} s) : s.Stored :=
  h.invariant ⟨fun _ hr => absurd hr List.not_mem_nil, fun _ _ hu => absurd hu nofun⟩
    fun _ _ _ hstored _ hs => hstored.step hs

/-! ## A deletion that runs to its end -/

/-- The action does not end the deletion early. -/
def System.Carries (j : ℕ) : Action → Prop
  | .ofDelete k a => k = j → a ≠ .fail ∧ a ≠ .commitFails true ∧ a ≠ .commitFails false
  | _ => True

namespace Delete

/-- `get_paths` has returned. -/
def HasRead (d : Delete) : Prop :=
  match d.phase with
  | .validating | .reading => False
  | _ => True

/-- The transaction is over. -/
def HasCommitted (d : Delete) : Prop :=
  match d.phase with
  | .unlinking _ | .finished => True
  | _ => False

/-- A step of a deletion that goes on: it deletes the row, unlinks a file, or neither. -/
theorem next_of_hasRead {d d' : Delete} {files files' : Finset String} {rows rows' : List BlobRow}
    {a : DeleteAction} (h : d.next files rows a = some (d', files', rows')) (hread : d.HasRead)
    (hok : a ≠ .fail ∧ a ≠ .commitFails true ∧ a ≠ .commitFails false) :
    d'.HasRead ∧
      ((d'.holds = d.holds ∧ files' = files ∧ rows' = rows ∧ (d'.HasCommitted → d.HasCommitted)) ∨
        (d'.holds = d.holds ∧ files' = files ∧ rows' = deleteRow rows d.id) ∨
        ∃ p, d.holds = p :: d'.holds ∧ files' = files.erase (stripRoot p) ∧ rows' = rows ∧
          d.HasCommitted) := by
  obtain ⟨id, phase⟩ := d
  cases a with
  | fail => exact absurd rfl hok.1
  | commitFails durable =>
    cases durable
    · exact absurd rfl hok.2.2
    · exact absurd rfl hok.2.1
  | validate | getPaths =>
    cases phase <;> cases h
    exact hread.elim
  | delete =>
    cases phase <;> cases h
    exact ⟨trivial, .inl ⟨rfl, rfl, rfl, nofun⟩⟩
  | commit =>
    cases phase <;> cases h
    exact ⟨trivial, .inr (.inl ⟨rfl, rfl, rfl⟩)⟩
  | unlink =>
    cases phase with
    | unlinking paths =>
      cases paths with
      | nil =>
        cases h
        exact ⟨trivial, .inl ⟨rfl, rfl, rfl, fun _ => trivial⟩⟩
      | cons p paths =>
        cases h
        exact ⟨trivial, .inr (.inr ⟨p, rfl, rfl, rfl, trivial⟩)⟩
    | _ => cases h

end Delete

/-- The deletion has read the paths of the row: each of its files is still to be unlinked or gone,
and once the transaction is over, so is the row. -/
structure System.Removing (s : System) (j : ℕ) (row : BlobRow) : Prop where
  done : s.Done (stemOf row.path)
  keyed : ∀ r ∈ s.rows, stemOf r.path = stemOf row.path → r.id = row.id
  deletion : ∃ d, s.deletes j = some d ∧ d.id = row.id ∧ d.HasRead ∧
    (∀ p ∈ row.paths, p ∈ d.holds ∨ p ∉ s.files) ∧
    (d.HasCommitted → ∀ r ∈ s.rows, stemOf r.path ≠ stemOf row.path)

variable {j : ℕ} {d : Delete} {row : BlobRow}

/-- A deletion stands still while others go on. -/
theorem System.deletes_of_ne (hd : s.deletes j = some d) (ha : ∀ b, a ≠ .ofDelete j b)
    (hs : s.step lower a = some s') : s'.deletes j = some d := by
  cases a with
  | upload i stem content name kind =>
    unfold System.step at hs
    dsimp only at hs
    split at hs
    · obtain ⟨-, hs⟩ := Option.ite_none_right_eq_some.mp hs
      obtain rfl := Option.some.inj hs
      exact hd
    · obtain rfl := Option.some.inj hs
      exact hd
  | ofUpload i b =>
    obtain ⟨u, -, hs⟩ := Option.bind_eq_some_iff.mp hs
    obtain ⟨⟨u', files, rows⟩, -, rfl⟩ := Option.map_eq_some_iff.mp hs
    exact hd
  | delete k id =>
    obtain ⟨hnew, hs⟩ := Option.ite_none_right_eq_some.mp hs
    obtain rfl := Option.some.inj hs
    refine System.deletes_setDelete.mpr (.inr ⟨?_, hd⟩)
    rintro rfl
    rw [hnew] at hd
    cases hd
  | ofDelete k b =>
    obtain ⟨e, -, hs⟩ := Option.bind_eq_some_iff.mp hs
    obtain ⟨⟨e', files, rows⟩, -, rfl⟩ := Option.map_eq_some_iff.mp hs
    refine System.deletes_setDelete.mpr (.inr ⟨?_, hd⟩)
    rintro rfl
    exact ha b rfl

theorem System.Removing.step (h : s.Removing j row) (hsound : s.Sound)
    (hnamed : ∀ p ∈ row.paths, stemOf p = stemOf row.path) (hstored : ∀ p ∈ row.paths, IsStored p)
    (hok : System.Carries j a) (hs : s.step lower a = some s') : s'.Removing j row := by
  have hshrinks := h.done.shrinks hsound hs
  have hgone : ∀ p ∈ row.paths, p ∉ s.files → p ∉ s'.files := fun p hp hno hfile =>
    hno (hshrinks.files p hfile (hnamed p hp))
  have hrows : (∀ r ∈ s.rows, stemOf r.path ≠ stemOf row.path) →
      ∀ r ∈ s'.rows, stemOf r.path ≠ stemOf row.path := fun hno r hr heq =>
    hno r (hshrinks.rows r hr heq) heq
  refine ⟨hshrinks.done, fun r hr heq => h.keyed r (hshrinks.rows r hr heq) heq, ?_⟩
  obtain ⟨d, hd, hid, hread, hfiles, hcommitted⟩ := h.deletion
  by_cases hown : ∃ b, a = .ofDelete j b
  · obtain ⟨b, rfl⟩ := hown
    obtain ⟨e, he, hs⟩ := Option.bind_eq_some_iff.mp hs
    obtain rfl : d = e := Option.some.inj (hd.symm.trans he)
    obtain ⟨⟨d', files, rows⟩, hnext, rfl⟩ := Option.map_eq_some_iff.mp hs
    obtain ⟨hread', hcases⟩ := Delete.next_of_hasRead hnext hread (hok rfl)
    refine ⟨d', System.deletes_setDelete.mpr (.inl ⟨rfl, rfl⟩),
      (Delete.effect_of_next hnext).1.trans hid, hread', fun p hp => ?_, fun hc => ?_⟩
    · rcases hfiles p hp with hheld | hno
      · rcases hcases with ⟨hholds, -⟩ | ⟨hholds, -⟩ | ⟨q, hholds, herase, -⟩
        · exact .inl (hholds ▸ hheld)
        · exact .inl (hholds ▸ hheld)
        · rcases List.mem_cons.mp (hholds ▸ hheld) with rfl | hheld
          · refine .inr ?_
            show p ∉ files
            rw [herase, (hstored p hp).2]
            exact Finset.notMem_erase p s.files
          · exact .inl hheld
      · exact .inr (hgone p hp hno)
    · rcases hcases with ⟨-, -, -, hback⟩ | ⟨-, -, hdelete⟩ | ⟨q, -, -, -, hbefore⟩
      · exact hrows (hcommitted (hback hc))
      · intro r hr heq
        have hkey : r.id = row.id := h.keyed r (hshrinks.rows r hr heq) heq
        have hkept : r ∈ deleteRow s.rows d.id := hdelete ▸ hr
        exact of_decide_eq_true (List.mem_filter.mp hkept).2 (hkey.trans hid.symm)
      · exact hrows (hcommitted hbefore)
  · exact ⟨d, System.deletes_of_ne hd (fun b hb => hown ⟨b, hb⟩) hs, hid, hread,
      fun p hp => (hfiles p hp).imp_right (hgone p hp), fun hc => hrows (hcommitted hc)⟩

/-- The deletion begins to remove the row when it has read the paths. -/
theorem removing_of_getPaths (hsound : s.Sound) (hstored : s.Stored) (hd : s.deletes j = some d)
    (hrow : s.rows.find? (·.id = d.id) = some row)
    (hs : s.step lower (.ofDelete j .getPaths) = some s') : s'.Removing j row := by
  have hmem : row ∈ s.rows := List.mem_of_find?_eq_some hrow
  have hid : row.id = d.id := by simpa using List.find?_some hrow
  have hshrinks := (hsound.done hmem).shrinks hsound hs
  refine ⟨hshrinks.done,
    fun r hr heq => hsound.keyed r (hshrinks.rows r hr heq) row hmem heq, ?_⟩
  obtain ⟨e, he, hs⟩ := Option.bind_eq_some_iff.mp hs
  obtain rfl : d = e := Option.some.inj (hd.symm.trans he)
  obtain ⟨⟨d', files, rows⟩, hnext, rfl⟩ := Option.map_eq_some_iff.mp hs
  obtain ⟨id, phase⟩ := d
  cases phase <;> cases hnext
  refine ⟨_, System.deletes_setDelete.mpr (.inl ⟨rfl, rfl⟩), hid.symm, trivial, fun p hp => ?_,
    fun hc => hc.elim⟩
  left
  show p ∈ getPaths s.rows id
  unfold getPaths
  rw [hrow]
  exact List.mem_filter.mpr ⟨hp, decide_eq_true (hstored.rows row hmem p hp).1⟩

/-- What is left of a blob after its deletion. -/
structure System.Removed (s : System) (row : BlobRow) : Prop where
  done : s.Done (stemOf row.path)
  files : ∀ p ∈ row.paths, p ∉ s.files
  rows : ∀ r ∈ s.rows, stemOf r.path ≠ stemOf row.path

theorem System.Removing.removed (h : s.Removing j row)
    (hfinished : (s.deletes j).map Delete.phase = some .finished) : s.Removed row := by
  obtain ⟨d, hd, -, -, hfiles, hcommitted⟩ := h.deletion
  rw [hd] at hfinished
  have hphase : d.phase = .finished := Option.some.inj hfinished
  refine ⟨h.done, fun p hp => ?_, hcommitted ?_⟩
  · refine (hfiles p hp).resolve_left ?_
    rw [Delete.holds, hphase]
    exact List.not_mem_nil
  · rw [Delete.HasCommitted, hphase]
    trivial

theorem System.Removed.step (h : s.Removed row) (hsound : s.Sound)
    (hnamed : ∀ p ∈ row.paths, stemOf p = stemOf row.path) (hs : s.step lower a = some s') :
    s'.Removed row := by
  have hshrinks := h.done.shrinks hsound hs
  exact ⟨hshrinks.done, fun p hp hfile => h.files p hp (hshrinks.files p hfile (hnamed p hp)),
    fun r hr heq => h.rows r (hshrinks.rows r hr heq) heq⟩

/-- **A deletion that runs to its end is final.** From then on there is none of the files of the row
that it read, and no row that has one of them. -/
theorem deletion_final (lower : String → String) {s s₁ s₂ s₃ : System} {j : ℕ} {d : Delete}
    {row : BlobRow} (h : Reachable (System.step lower) {} s) (hd : s.deletes j = some d)
    (hrow : s.rows.find? (·.id = d.id) = some row)
    (hread : s.step lower (.ofDelete j .getPaths) = some s₁)
    (hrun : Reach (System.step lower) (fun _ => System.Carries j) s₁ s₂)
    (hfinished : (s₂.deletes j).map Delete.phase = some .finished)
    (hlater : Reachable (System.step lower) s₂ s₃) :
    ∀ p ∈ row.paths, p ∉ s₃.files ∧ ∀ r ∈ s₃.rows, p ∉ r.paths := by
  have hsound := sound_of_reachable h
  have hstored := stored_of_reachable h
  have hmem : row ∈ s.rows := List.mem_of_find?_eq_some hrow
  have hnamed : ∀ p ∈ row.paths, stemOf p = stemOf row.path := fun p hp => by
    obtain ⟨stem, -, hpaths⟩ := hsound.named row hmem
    rw [hpaths p hp, hpaths _ row.path_mem_paths]
  have hremoving : s₂.Sound ∧ s₂.Removing j row :=
    hrun.invariant (P := fun s => s.Sound ∧ s.Removing j row)
      ⟨hsound.step hread, removing_of_getPaths hsound hstored hd hrow hread⟩
      fun _ _ _ ⟨hsound, hremoving⟩ hok hs =>
        ⟨hsound.step hs, hremoving.step hsound hnamed (hstored.rows row hmem) hok hs⟩
  obtain ⟨hsound₃, hremoved⟩ : s₃.Sound ∧ s₃.Removed row :=
    hlater.invariant (P := fun s => s.Sound ∧ s.Removed row)
      ⟨hremoving.1, hremoving.2.removed hfinished⟩
      fun _ _ _ ⟨hsound, hremoved⟩ _ hs => ⟨hsound.step hs, hremoved.step hsound hnamed hs⟩
  refine fun p hp => ⟨hremoved.files p hp, fun r hr hown => ?_⟩
  obtain ⟨stem, -, hpaths⟩ := hsound₃.named r hr
  refine hremoved.rows r hr ?_
  rw [hpaths _ r.path_mem_paths, ← hpaths p hown, hnamed p hp]

instance (j : ℕ) : (a : Action) → Decidable (System.Carries j a)
  | .ofDelete k a => inferInstanceAs
      (Decidable (k = j → a ≠ .fail ∧ a ≠ .commitFails true ∧ a ≠ .commitFails false))
  | .upload .. | .ofUpload .. | .delete .. => inferInstanceAs (Decidable True)

/-- A text is uploaded, and its deletion is admitted. -/
def notesDoomed : List Action :=
  [.upload 0 notesStem [0x61] "notes.txt" .raw, .ofUpload 0 .write, .ofUpload 0 (.create 2),
   .ofUpload 0 .commit, .delete 0 2, .ofDelete 0 .validate]

/-- The deletion runs to its end, beside another one that crashes. -/
def notesRemoved : List Action :=
  [.delete 1 2, .ofDelete 1 .validate, .ofDelete 0 .delete, .ofDelete 0 .commit, .ofDelete 1 .fail,
   .ofDelete 0 .unlink, .ofDelete 0 .unlink]

/-- An image is uploaded. -/
def photoUploaded : List Action :=
  [.upload 1 photoStem [0xFF, 0xD8, 0xFF, 0xE0] "photo.jpg" .image, .ofUpload 1 .write,
   .ofUpload 1 .write, .ofUpload 1 .write, .ofUpload 1 (.create 2), .ofUpload 1 .commit]

theorem deletion_final_notes : ∃ s, Reachable (System.step id) {} s ∧ s.rows.length = 1 ∧
    ∀ p ∈ notesRow.paths, p ∉ s.files ∧ ∀ r ∈ s.rows, p ∉ r.paths := by
  have hrun : ((runActions (System.step id) (fun _ _ => True) {} notesDoomed).bind fun s =>
      (s.step id (.ofDelete 0 .getPaths)).bind fun s₁ =>
        (runActions (System.step id) (fun _ => System.Carries 0) s₁ notesRemoved).bind fun s₂ =>
          (runActions (System.step id) (fun _ _ => True) s₂ photoUploaded).map fun s₃ =>
            (s.deletes 0, s.rows, (s₂.deletes 0).map Delete.phase, s₃.rows.length)) =
        some (some ⟨2, .reading⟩, [notesRow], some .finished, 1) := by decide +kernel
  obtain ⟨s, hs, hrun⟩ := Option.bind_eq_some_iff.mp hrun
  obtain ⟨s₁, hread, hrun⟩ := Option.bind_eq_some_iff.mp hrun
  obtain ⟨s₂, hs₂, hrun⟩ := Option.bind_eq_some_iff.mp hrun
  obtain ⟨s₃, hs₃, hend⟩ := Option.map_eq_some_iff.mp hrun
  obtain ⟨hd, hrows, hfinished, hlength⟩ := by simpa only [Prod.mk.injEq] using hend
  have hreach := Reach.of_runActions hs
  have hmiddle := Reach.of_runActions hs₂
  have hlater := Reach.of_runActions hs₃
  refine ⟨s₃, ((hreach.tail trivial hread).trans
    (hmiddle.imp fun _ _ _ => trivial)).trans hlater, hlength, ?_⟩
  refine deletion_final id hreach hd ?_ hread hmiddle hfinished hlater
  rw [hrows]
  rfl

end ApiTemplate.Blob
