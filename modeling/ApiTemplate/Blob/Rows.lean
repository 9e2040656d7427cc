import ApiTemplate.Blob.Handlers

/-!
# No row without its files

Every file of a committed row exists, in every run of uploads and deletions. A stem belongs to one
party at a time (`Sound`): to an upload that may still insert its row or clean up, then to a row,
then to nobody. A file is unlinked by its upload, or after its row is gone.
-/

namespace ApiTemplate.Blob

open TxStore (Reach Reachable runActions)

/-! ## What a party holds -/

namespace Upload

/-- The row may still be inserted. -/
def IsLive (u : Upload) : Prop :=
  match u.phase with
  | .cleaning _ | .finished _ | .crashed => False
  | _ => True

/-- The upload may still insert its row or unlink its files. -/
def IsOpen (u : Upload) : Prop :=
  match u.phase with
  | .finished _ | .crashed => False
  | _ => True

/-- The files that the row is going to have, or that are to be unlinked. -/
def holds (u : Upload) : List String :=
  match u.phase with
  | .medium => [u.path .original]
  | .thumbnail mediumPath => u.path .original :: mediumPath.toList
  | .stored dto => dto.paths
  | .created _ dto => dto.paths
  | .cleaning paths => paths
  | _ => []

end Upload

/-- The paths that a deletion has read. -/
def Delete.holds (d : Delete) : List String :=
  match d.phase with
  | .deleting paths => paths
  | .deleted paths => paths
  | .unlinking paths => paths
  | _ => []

/-- The deletion has been committed. -/
def Delete.IsUnlinking (d : Delete) : Prop :=
  match d.phase with
  | .unlinking _ => True
  | _ => False

/-! ## The invariant -/

/-- The files of the rows exist, and a stem belongs to one party. -/
structure System.Sound (s : System) : Prop where
  present : ∀ r ∈ s.rows, ∀ p ∈ r.paths, p ∈ s.files
  named : ∀ r ∈ s.rows, ∃ stem ∈ s.stems, ∀ p ∈ r.paths, stemOf p = stem.text
  keyed : ∀ r ∈ s.rows, ∀ r' ∈ s.rows, stemOf r.path = stemOf r'.path → r.id = r'.id
  drawn : ∀ i u, s.uploads i = some u → u.stem ∈ s.stems
  apart : ∀ i j u v, s.uploads i = some u → s.uploads j = some v → u.stem = v.stem → i = j
  held : ∀ i u, s.uploads i = some u → ∀ p ∈ u.holds, stemOf p = u.stem.text ∧
    (u.IsLive → p ∈ s.files)
  unclaimed : ∀ i u, s.uploads i = some u → u.IsOpen → ∀ r ∈ s.rows, stemOf r.path ≠ u.stem.text
  read : ∀ j d, s.deletes j = some d → ∀ p ∈ d.holds, (∃ stem ∈ s.stems, stemOf p = stem.text) ∧
    ∀ i u, s.uploads i = some u → u.IsOpen → u.stem.text ≠ stemOf p
  gone : ∀ j d, s.deletes j = some d → ∀ p ∈ d.holds, ∀ r ∈ s.rows, stemOf r.path = stemOf p →
    r.id = d.id ∧ ¬ d.IsUnlinking

theorem Upload.IsLive.isOpen {u : Upload} (h : u.IsLive) : u.IsOpen := by
  unfold Upload.IsLive at h
  unfold Upload.IsOpen
  cases hu : u.phase <;> simp_all

theorem StoredBlobDTO.path_mem_paths (dto : StoredBlobDTO) : dto.path ∈ dto.paths :=
  List.mem_cons_self

theorem sound_start : ({} : System).Sound where
  present _ hr := absurd hr List.not_mem_nil
  named _ hr := absurd hr List.not_mem_nil
  keyed _ hr := absurd hr List.not_mem_nil
  drawn _ u hu := absurd hu (Option.some_ne_none u).symm
  apart _ _ u _ hu := absurd hu (Option.some_ne_none u).symm
  held _ u hu := absurd hu (Option.some_ne_none u).symm
  unclaimed _ u hu := absurd hu (Option.some_ne_none u).symm
  read _ d hd := absurd hd (Option.some_ne_none d).symm
  gone _ d hd := absurd hd (Option.some_ne_none d).symm

theorem System.uploads_setUpload {s : System} {i k : ℕ} {u v : Upload} :
    (s.setUpload i u).uploads k = some v ↔ (k = i ∧ v = u) ∨ (k ≠ i ∧ s.uploads k = some v) := by
  unfold System.setUpload
  by_cases h : k = i
  · simp [h, eq_comm]
  · simp [h]

theorem System.deletes_setDelete {s : System} {j k : ℕ} {d e : Delete} :
    (s.setDelete j d).deletes k = some e ↔ (k = j ∧ e = d) ∨ (k ≠ j ∧ s.deletes k = some e) := by
  unfold System.setDelete
  by_cases h : k = j
  · simp [h, eq_comm]
  · simp [h]

namespace System.Sound

variable {s : System} {i j : ℕ} {u u' : Upload} {d d' : Delete} {p : String}

/-! ## Changes of the files -/

theorem insertFile (h : s.Sound) (p : String) : { s with files := insert p s.files }.Sound where
  present r hr q hq := Finset.mem_insert_of_mem (h.present r hr q hq)
  named := h.named
  keyed := h.keyed
  drawn := h.drawn
  apart := h.apart
  held i u hu q hq :=
    ⟨(h.held i u hu q hq).1, fun hlive => Finset.mem_insert_of_mem ((h.held i u hu q hq).2 hlive)⟩
  unclaimed := h.unclaimed
  read := h.read
  gone := h.gone

/-- A file may go whose stem belongs to no row and to no upload that may still insert one. -/
theorem eraseFile (h : s.Sound) (hrows : ∀ r ∈ s.rows, stemOf r.path ≠ stemOf p)
    (huploads : ∀ i u, s.uploads i = some u → u.IsLive → u.stem.text ≠ stemOf p) :
    { s with files := s.files.erase p }.Sound where
  present r hr q hq := by
    obtain ⟨stem, -, hstem⟩ := h.named r hr
    refine Finset.mem_erase.mpr ⟨?_, h.present r hr q hq⟩
    rintro rfl
    exact hrows r hr ((hstem _ r.path_mem_paths).trans (hstem _ hq).symm)
  named := h.named
  keyed := h.keyed
  drawn := h.drawn
  apart := h.apart
  held i u hu q hq := by
    obtain ⟨hstem, hfile⟩ := h.held i u hu q hq
    refine ⟨hstem, fun hlive => Finset.mem_erase.mpr ⟨?_, hfile hlive⟩⟩
    rintro rfl
    exact huploads i u hu hlive hstem.symm
  unclaimed := h.unclaimed
  read := h.read
  gone := h.gone

/-! ## Changes of the parties -/

/-- An upload goes on with its stem, and holds files of its own. -/
theorem setUpload (h : s.Sound) (hu : s.uploads i = some u) (hstem : u'.stem = u.stem)
    (hopen : u'.IsOpen → u.IsOpen)
    (hheld : ∀ p ∈ u'.holds, stemOf p = u.stem.text ∧ (u'.IsLive → p ∈ s.files)) :
    (s.setUpload i u').Sound := by
  have hown : ∀ k v, (s.setUpload i u').uploads k = some v →
      ∃ w, s.uploads k = some w ∧ v.stem = w.stem ∧ (v.IsOpen → w.IsOpen) := by
    intro k v hv
    rcases System.uploads_setUpload.mp hv with ⟨rfl, rfl⟩ | ⟨-, hv⟩
    · exact ⟨u, hu, hstem, hopen⟩
    · exact ⟨v, hv, rfl, id⟩
  refine ⟨h.present, h.named, h.keyed, ?_, ?_, ?_, ?_, ?_, h.gone⟩
  · intro k v hv
    obtain ⟨w, hw, hstem, -⟩ := hown k v hv
    exact hstem ▸ h.drawn k w hw
  · intro k l v v' hv hv' heq
    obtain ⟨w, hw, hstem, -⟩ := hown k v hv
    obtain ⟨w', hw', hstem', -⟩ := hown l v' hv'
    exact h.apart k l w w' hw hw' (hstem ▸ hstem' ▸ heq)
  · intro k v hv
    rcases System.uploads_setUpload.mp hv with ⟨rfl, rfl⟩ | ⟨-, hv⟩
    · rw [hstem]
      exact hheld
    · exact h.held k v hv
  · intro k v hv hopen r hr
    obtain ⟨w, hw, hstem, hwopen⟩ := hown k v hv
    rw [hstem]
    exact h.unclaimed k w hw (hwopen hopen) r hr
  · intro j d hd p hp
    obtain ⟨hdrawn, hfree⟩ := h.read j d hd p hp
    refine ⟨hdrawn, fun k v hv hopen => ?_⟩
    obtain ⟨w, hw, hstem, hwopen⟩ := hown k v hv
    rw [hstem]
    exact hfree k w hw (hwopen hopen)

/-- An upload starts with a fresh stem. -/
theorem startUpload (h : s.Sound) (hfresh : u.stem ∉ s.stems) (hholds : u.holds = []) :
    { s.setUpload i u with stems := u.stem :: s.stems }.Sound := by
  have htext : ∀ {t}, (∃ stem ∈ s.stems, t = stem.text) → t ≠ u.stem.text := by
    rintro t ⟨stem, hstem, rfl⟩ heq
    exact hfresh (Stem.ext heq ▸ hstem)
  have hcons : ∀ {t}, (∃ stem ∈ s.stems, t = stem.text) →
      ∃ stem ∈ u.stem :: s.stems, t = stem.text := by
    rintro t ⟨stem, hstem, ht⟩
    exact ⟨stem, List.mem_cons_of_mem _ hstem, ht⟩
  have hrow : ∀ r ∈ s.rows, ∃ stem ∈ s.stems, stemOf r.path = stem.text := by
    intro r hr
    obtain ⟨stem, hstem, hpaths⟩ := h.named r hr
    exact ⟨stem, hstem, hpaths _ r.path_mem_paths⟩
  refine ⟨h.present, ?_, h.keyed, ?_, ?_, ?_, ?_, ?_, h.gone⟩
  · intro r hr
    obtain ⟨stem, hstem, hpaths⟩ := h.named r hr
    exact ⟨stem, List.mem_cons_of_mem _ hstem, hpaths⟩
  · intro k v hv
    rcases System.uploads_setUpload.mp hv with ⟨-, rfl⟩ | ⟨-, hv⟩
    · exact List.mem_cons_self
    · exact List.mem_cons_of_mem _ (h.drawn k v hv)
  · intro k l v v' hv hv' heq
    rcases System.uploads_setUpload.mp hv with ⟨rfl, rfl⟩ | ⟨-, hk⟩ <;>
      rcases System.uploads_setUpload.mp hv' with ⟨rfl, rfl⟩ | ⟨-, hl⟩
    · rfl
    · exact absurd (heq ▸ h.drawn l v' hl) hfresh
    · exact absurd (heq ▸ h.drawn k v hk) hfresh
    · exact h.apart k l v v' hk hl heq
  · intro k v hv
    rcases System.uploads_setUpload.mp hv with ⟨-, rfl⟩ | ⟨-, hv⟩
    · rw [hholds]
      exact fun p hp => absurd hp List.not_mem_nil
    · exact h.held k v hv
  · intro k v hv hopen r hr
    rcases System.uploads_setUpload.mp hv with ⟨-, rfl⟩ | ⟨-, hv⟩
    · exact htext (hrow r hr)
    · exact h.unclaimed k v hv hopen r hr
  · intro j d hd p hp
    obtain ⟨hdrawn, hfree⟩ := h.read j d hd p hp
    refine ⟨hcons hdrawn, fun k v hv hopen => ?_⟩
    rcases System.uploads_setUpload.mp hv with ⟨-, rfl⟩ | ⟨-, hv⟩
    · exact (htext hdrawn).symm
    · exact hfree k v hv hopen

/-- A live upload inserts its row, and is done. -/
theorem insertRow (h : s.Sound) (hu : s.uploads i = some u) (hlive : u.IsLive) {row : BlobRow}
    (hrow : ∀ p ∈ row.paths, p ∈ u.holds) (hstem : u'.stem = u.stem) (hclosed : ¬ u'.IsOpen)
    (hholds : u'.holds = []) :
    { s.setUpload i u' with rows := s.rows ++ [row] }.Sound := by
  have hsound : (s.setUpload i u').Sound :=
    h.setUpload hu hstem (fun hopen => absurd hopen hclosed) (by simp [hholds])
  have hown : ∀ p ∈ row.paths, stemOf p = u.stem.text ∧ p ∈ s.files := by
    intro p hp
    obtain ⟨hp, hfile⟩ := h.held i u hu p (hrow p hp)
    exact ⟨hp, hfile hlive⟩
  have hpath : stemOf row.path = u.stem.text := (hown _ row.path_mem_paths).1
  have hother : ∀ r ∈ s.rows, stemOf r.path ≠ stemOf row.path := fun r hr =>
    hpath ▸ h.unclaimed i u hu hlive.isOpen r hr
  have hmem : ∀ {r}, r ∈ s.rows ++ [row] → r ∈ s.rows ∨ r = row := by simp
  refine ⟨?_, ?_, ?_, hsound.drawn, hsound.apart, hsound.held, ?_, hsound.read, ?_⟩
  · intro r hr p hp
    rcases hmem hr with hr | rfl
    · exact h.present r hr p hp
    · exact (hown p hp).2
  · intro r hr
    rcases hmem hr with hr | rfl
    · exact h.named r hr
    · exact ⟨u.stem, h.drawn i u hu, fun p hp => (hown p hp).1⟩
  · intro r hr r' hr' heq
    rcases hmem hr with hold | rfl <;> rcases hmem hr' with hold' | rfl
    · exact h.keyed r hold r' hold' heq
    · exact absurd heq (hother r hold)
    · exact absurd heq.symm (hother r' hold')
    · rfl
  · intro k v hv hopen r hr
    rcases hmem hr with hr | rfl
    · exact hsound.unclaimed k v hv hopen r hr
    · rcases System.uploads_setUpload.mp hv with ⟨-, rfl⟩ | ⟨hne, hv⟩
      · exact absurd hopen hclosed
      · rw [hpath]
        exact fun htext => hne (h.apart k i v u hv hu (Stem.ext htext.symm))
  · intro j d hd p hp r hr heq
    rcases hmem hr with hr | rfl
    · exact h.gone j d hd p hp r hr heq
    · exact absurd (hpath.symm.trans heq) ((h.read j d hd p hp).2 i u hu hlive.isOpen)

/-- Rows may go. -/
theorem deleteRows (h : s.Sound) {rows : List BlobRow} (hrows : ∀ r ∈ rows, r ∈ s.rows) :
    { s with rows }.Sound where
  present r hr := h.present r (hrows r hr)
  named r hr := h.named r (hrows r hr)
  keyed r hr r' hr' := h.keyed r (hrows r hr) r' (hrows r' hr')
  drawn := h.drawn
  apart := h.apart
  held := h.held
  unclaimed i u hu hopen r hr := h.unclaimed i u hu hopen r (hrows r hr)
  read := h.read
  gone j d hd p hp r hr := h.gone j d hd p hp r (hrows r hr)

/-- A deletion goes on with paths of stems that belong to no upload. -/
theorem setDelete (h : s.Sound)
    (hread : ∀ p ∈ d'.holds, (∃ stem ∈ s.stems, stemOf p = stem.text) ∧
      ∀ i u, s.uploads i = some u → u.IsOpen → u.stem.text ≠ stemOf p)
    (hgone : ∀ p ∈ d'.holds, ∀ r ∈ s.rows, stemOf r.path = stemOf p →
      r.id = d'.id ∧ ¬ d'.IsUnlinking) :
    (s.setDelete j d').Sound := by
  refine ⟨h.present, h.named, h.keyed, h.drawn, h.apart, h.held, h.unclaimed, ?_, ?_⟩
  · intro k e he
    rcases System.deletes_setDelete.mp he with ⟨-, rfl⟩ | ⟨-, he⟩
    · exact hread
    · exact h.read k e he
  · intro k e he
    rcases System.deletes_setDelete.mp he with ⟨-, rfl⟩ | ⟨-, he⟩
    · exact hgone
    · exact h.gone k e he

end System.Sound

/-! ## What a step does -/

/-- What one step of an upload does to the files and the rows. -/
inductive Upload.Effect (u u' : Upload) (files : Finset String) (rows : List BlobRow) :
    Finset String → List BlobRow → Prop
  | quiet (hopen : u'.IsOpen → u.IsOpen) (hlive : u'.IsLive → u.IsLive)
      (hholds : ∀ p ∈ u'.holds, p ∈ u.holds) : Effect u u' files rows files rows
  | writes (target : Target) (hlive : u.IsLive)
      (hholds : ∀ p ∈ u'.holds, p = u.path target ∨ p ∈ u.holds) :
      Effect u u' files rows (insert (u.path target) files) rows
  | unlinks (p : String) (hp : p ∈ u.holds) (hopen : u.IsOpen) (hlive : ¬ u'.IsLive)
      (hclean : ¬ u.IsLive) (hholds : ∀ p ∈ u'.holds, p ∈ u.holds) :
      Effect u u' files rows (files.erase (stripRoot p)) rows
  | inserts (row : BlobRow) (hrow : ∀ p ∈ row.paths, p ∈ u.holds) (hlive : u.IsLive)
      (hclosed : ¬ u'.IsOpen) (hholds : u'.holds = []) :
      Effect u u' files rows files (rows ++ [row])

namespace Upload

variable {u u' : Upload} {files files' : Finset String} {rows rows' : List BlobRow}
  {dto : StoredBlobDTO} {p : String}

theorem mem_holds_afterStore (h : p ∈ (u.afterStore dto).holds) : p ∈ dto.paths := by
  cases hu : u.awaited <;> simp only [afterStore, hu, if_true] at h
  · exact absurd h List.not_mem_nil
  · exact h

theorem mem_holds_afterOriginal (h : p ∈ u.afterOriginal.holds) : p = u.path .original := by
  unfold afterOriginal at h
  split at h
  · exact List.mem_singleton.mp h
  · exact List.mem_singleton.mp (mem_holds_afterStore h)

theorem mem_holds_afterThumbnail {mediumPath thumbnailPath : Option String}
    (h : p ∈ (u.afterThumbnail mediumPath thumbnailPath).holds) :
    p ∈ thumbnailPath ∨ p ∈ u.path .original :: mediumPath.toList := by
  have hp := mem_holds_afterStore h
  simp only [StoredBlobDTO.paths, List.mem_cons, List.mem_append, Option.mem_toList] at hp
  simp only [List.mem_cons, Option.mem_toList]
  tauto

theorem stem_afterOriginal : u.afterOriginal.stem = u.stem := by
  unfold afterOriginal
  split <;> rfl

/-- A failed write is none, or the write of a part. -/
theorem effect_spill (target : Target) (leftover : Bool) (hlive : u.IsLive)
    (hholds : ∀ p ∈ u'.holds, p ∈ u.holds) :
    u.Effect u' files rows (u.spill target leftover files) rows := by
  unfold spill
  split
  · exact .writes target hlive fun p hp => .inr (hholds p hp)
  · exact .quiet (fun _ => hlive.isOpen) (fun _ => hlive) hholds

theorem effect_write (h : u.next files rows .write = some (u', files', rows')) :
    u'.stem = u.stem ∧ u.Effect u' files rows files' rows' := by
  obtain ⟨kind, stem, extension, supported, phase, awaited⟩ := u
  cases phase with
  | original =>
    cases h
    exact ⟨stem_afterOriginal, .writes .original trivial fun p hp =>
      .inl (mem_holds_afterOriginal hp)⟩
  | medium =>
    cases h
    refine ⟨rfl, .writes .medium trivial fun p hp => ?_⟩
    rcases List.mem_pair.mp hp with rfl | rfl
    · exact .inr List.mem_cons_self
    · exact .inl rfl
  | thumbnail mediumPath =>
    cases h
    refine ⟨rfl, .writes .thumbnail trivial fun p hp => ?_⟩
    exact (mem_holds_afterThumbnail hp).imp (fun h => (Option.some.inj h).symm) id
  | _ => cases h

theorem effect_writeFails {leftover : Bool}
    (h : u.next files rows (.writeFails leftover) = some (u', files', rows')) :
    u'.stem = u.stem ∧ u.Effect u' files rows files' rows' := by
  obtain ⟨kind, stem, extension, supported, phase, awaited⟩ := u
  cases phase with
  | original =>
    cases h
    exact ⟨rfl, effect_spill .original leftover trivial nofun⟩
  | medium =>
    cases h
    exact ⟨rfl, effect_spill .medium leftover trivial fun p hp => hp⟩
  | thumbnail mediumPath =>
    cases h
    refine ⟨rfl, effect_spill .thumbnail leftover trivial fun p hp => ?_⟩
    exact (mem_holds_afterThumbnail hp).resolve_left nofun
  | _ => cases h

theorem effect_unlink (h : u.next files rows .unlink = some (u', files', rows')) :
    u'.stem = u.stem ∧ u.Effect u' files rows files' rows' := by
  obtain ⟨kind, stem, extension, supported, phase, awaited⟩ := u
  cases phase with
  | cleaning paths =>
    cases paths with
    | nil =>
      cases h
      exact ⟨rfl, .quiet nofun nofun nofun⟩
    | cons p paths =>
      cases h
      exact ⟨rfl, .unlinks p List.mem_cons_self trivial nofun nofun fun q hq =>
        List.mem_cons_of_mem p hq⟩
  | _ => cases h

/-- A cancelled thread goes on; without a thread the handler ends. -/
theorem effect_cancel (h : u.next files rows .cancel = some (u', files', rows')) :
    u'.stem = u.stem ∧ u.Effect u' files rows files' rows' := by
  obtain ⟨kind, stem, extension, supported, phase, awaited⟩ := u
  cases phase with
  | original | medium | thumbnail mediumPath | cleaning paths =>
    cases awaited <;> cases h
    exact ⟨rfl, .quiet id id fun p hp => hp⟩
  | stored dto | created id dto =>
    cases h
    exact ⟨rfl, .quiet nofun nofun nofun⟩
  | finished outcome | crashed => cases h

/-- One step of an upload keeps its stem and has one of the effects. -/
theorem effect_of_next {a : UploadAction} (h : u.next files rows a = some (u', files', rows')) :
    u'.stem = u.stem ∧ u.Effect u' files rows files' rows' := by
  cases a with
  | write => exact effect_write h
  | writeFails leftover => exact effect_writeFails h
  | unlink => exact effect_unlink h
  | cancel => exact effect_cancel h
  | create id =>
    obtain ⟨kind, stem, extension, supported, phase, awaited⟩ := u
    cases phase <;> cases h
    exact ⟨rfl, .quiet (fun _ => trivial) (fun _ => trivial) fun p hp => hp⟩
  | createFails =>
    obtain ⟨kind, stem, extension, supported, phase, awaited⟩ := u
    cases phase <;> cases h
    exact ⟨rfl, .quiet (fun _ => trivial) nofun fun p hp => hp⟩
  | commit =>
    obtain ⟨kind, stem, extension, supported, phase, awaited⟩ := u
    cases phase <;> cases h
    exact ⟨rfl, .inserts _ (fun p hp => hp) trivial nofun rfl⟩
  | commitFails durable =>
    obtain ⟨kind, stem, extension, supported, phase, awaited⟩ := u
    cases phase <;> cases durable <;> cases h
    · exact ⟨rfl, .quiet nofun nofun nofun⟩
    · exact ⟨rfl, .inserts _ (fun p hp => hp) trivial nofun rfl⟩
  | unlinkFails =>
    obtain ⟨kind, stem, extension, supported, phase, awaited⟩ := u
    cases phase <;> cases h
    exact ⟨rfl, .quiet nofun nofun nofun⟩
  | crash =>
    obtain ⟨kind, stem, extension, supported, phase, awaited⟩ := u
    cases phase <;> cases h <;> exact ⟨rfl, .quiet nofun nofun nofun⟩

end Upload

/-- What one step of a deletion does to the files and the rows. -/
inductive Delete.Effect (d d' : Delete) (files : Finset String) (rows : List BlobRow) :
    Finset String → List BlobRow → Prop
  | quiet (hunlinking : d'.IsUnlinking → d.IsUnlinking) (hholds : ∀ p ∈ d'.holds, p ∈ d.holds) :
      Effect d d' files rows files rows
  | reads (hunlinking : ¬ d'.IsUnlinking) (hholds : ∀ p ∈ d'.holds, ∃ r ∈ rows, r.id = d.id ∧
      p ∈ r.paths) : Effect d d' files rows files rows
  | deletes (hholds : ∀ p ∈ d'.holds, p ∈ d.holds) :
      Effect d d' files rows files (deleteRow rows d.id)
  | unlinks (p : String) (hp : p ∈ d.holds) (hunlinking : d.IsUnlinking)
      (hholds : ∀ p ∈ d'.holds, p ∈ d.holds) :
      Effect d d' files rows (files.erase (stripRoot p)) rows

theorem mem_getPaths {rows : List BlobRow} {id : ℕ} {p : String} (h : p ∈ getPaths rows id) :
    ∃ r ∈ rows, r.id = id ∧ p ∈ r.paths := by
  unfold getPaths at h
  cases hfind : rows.find? (·.id = id) with
  | none => simp [hfind] at h
  | some row =>
    rw [hfind] at h
    exact ⟨row, List.mem_of_find?_eq_some hfind, by simpa using List.find?_some hfind,
      List.mem_of_mem_filter h⟩

/-- One step of a deletion keeps its id and has one of the effects. -/
theorem Delete.effect_of_next {d d' : Delete} {files files' : Finset String}
    {rows rows' : List BlobRow} {a : DeleteAction}
    (h : d.next files rows a = some (d', files', rows')) :
    d'.id = d.id ∧ d.Effect d' files rows files' rows' := by
  obtain ⟨id, phase⟩ := d
  cases a with
  | fail =>
    cases phase <;> cases h <;> exact ⟨rfl, .quiet nofun nofun⟩
  | validate =>
    cases phase <;> cases h
    cases rows.any (·.id = id) <;> exact ⟨rfl, .quiet nofun nofun⟩
  | getPaths =>
    cases phase <;> cases h
    exact ⟨rfl, .reads nofun fun p hp => mem_getPaths hp⟩
  | delete =>
    cases phase <;> cases h
    exact ⟨rfl, .quiet nofun fun p hp => hp⟩
  | commit =>
    cases phase <;> cases h
    exact ⟨rfl, .deletes fun p hp => hp⟩
  | commitFails durable =>
    cases phase <;> cases durable <;> cases h
    · exact ⟨rfl, .quiet nofun nofun⟩
    · exact ⟨rfl, .deletes nofun⟩
  | unlink =>
    cases phase with
    | unlinking paths =>
      cases paths with
      | nil =>
        cases h
        exact ⟨rfl, .quiet nofun nofun⟩
      | cons p paths =>
        cases h
        exact ⟨rfl, .unlinks p List.mem_cons_self trivial fun q hq => List.mem_cons_of_mem p hq⟩
    | _ => cases h

/-! ## Every run -/

theorem Upload.stemOf_path (u : Upload) (target : Target) :
    stemOf (u.path target) = u.stem.text :=
  stemOf_storedPath u.kind u.stem (slash_not_mem_extension u.supported) target

theorem Upload.holds_of_original {u : Upload} (h : u.phase = .original) : u.holds = [] := by
  unfold Upload.holds
  rw [h]

/-- What a step of the system does: nothing, the start of an upload or of a deletion, or a step of
one of them. -/
theorem System.step_cases {lower : String → String} {s s' : System} {a : Action}
    (hs : s.step lower a = some s') :
    s' = s ∨
    (∃ i u, s.uploads i = none ∧ u.stem ∉ s.stems ∧ u.phase = .original ∧
      s' = { s.setUpload i u with stems := u.stem :: s.stems }) ∨
    (∃ i b u u' files rows, a = .ofUpload i b ∧ s.uploads i = some u ∧
      u.next s.files s.rows b = some (u', files, rows) ∧
      s' = { s.setUpload i u' with files, rows }) ∨
    (∃ j id, s.deletes j = none ∧ s' = s.setDelete j { id }) ∨
    ∃ j b d d' files rows, s.deletes j = some d ∧
      d.next s.files s.rows b = some (d', files, rows) ∧
      s' = { s.setDelete j d' with files, rows } := by
  cases a with
  | upload i stem content name kind =>
    unfold System.step at hs
    dsimp only at hs
    split at hs
    · obtain ⟨⟨hnew, hfresh⟩, hs⟩ := Option.ite_none_right_eq_some.mp hs
      obtain rfl := Option.some.inj hs
      exact .inr (.inl ⟨i, _, hnew, hfresh, rfl, rfl⟩)
    · obtain rfl := Option.some.inj hs
      exact .inl rfl
  | ofUpload i b =>
    obtain ⟨u, hu, hs⟩ := Option.bind_eq_some_iff.mp hs
    obtain ⟨⟨u', files, rows⟩, hnext, rfl⟩ := Option.map_eq_some_iff.mp hs
    exact .inr (.inr (.inl ⟨i, b, u, u', files, rows, rfl, hu, hnext, rfl⟩))
  | delete j id =>
    obtain ⟨hnew, hs⟩ := Option.ite_none_right_eq_some.mp hs
    obtain rfl := Option.some.inj hs
    exact .inr (.inr (.inr (.inl ⟨j, id, hnew, rfl⟩)))
  | ofDelete j b =>
    obtain ⟨d, hd, hs⟩ := Option.bind_eq_some_iff.mp hs
    obtain ⟨⟨d', files, rows⟩, hnext, rfl⟩ := Option.map_eq_some_iff.mp hs
    exact .inr (.inr (.inr (.inr ⟨j, b, d, d', files, rows, hd, hnext, rfl⟩)))

namespace System.Sound

variable {s s' : System} {i j : ℕ} {lower : String → String}

theorem ofUpload (h : s.Sound) {u u' : Upload} {a : UploadAction} {files : Finset String}
    {rows : List BlobRow} (hu : s.uploads i = some u)
    (hnext : u.next s.files s.rows a = some (u', files, rows)) :
    { s.setUpload i u' with files, rows }.Sound := by
  obtain ⟨hstem, heffect⟩ := Upload.effect_of_next hnext
  have hheld := h.held i u hu
  cases heffect with
  | quiet hopen hlive hholds =>
    exact h.setUpload hu hstem hopen fun p hp =>
      ⟨(hheld p (hholds p hp)).1, fun hl => (hheld p (hholds p hp)).2 (hlive hl)⟩
  | writes target hlive hholds =>
    refine (h.insertFile (u.path target)).setUpload hu hstem (fun _ => hlive.isOpen) fun p hp => ?_
    rcases hholds p hp with rfl | hp
    · exact ⟨u.stemOf_path target, fun _ => Finset.mem_insert_self _ _⟩
    · exact ⟨(hheld p hp).1, fun _ => Finset.mem_insert_of_mem ((hheld p hp).2 hlive)⟩
  | unlinks p hp hopen hlive hclean hholds =>
    have hset : (s.setUpload i u').Sound := h.setUpload hu hstem (fun _ => hopen) fun q hq =>
      ⟨(hheld q (hholds q hq)).1, fun hl => absurd hl hlive⟩
    have htext : stemOf (stripRoot p) = u.stem.text := (stemOf_stripRoot p).trans (hheld p hp).1
    refine hset.eraseFile (p := stripRoot p) (fun r hr => ?_) fun k v hv hvlive => ?_
    · rw [htext]
      exact h.unclaimed i u hu hopen r hr
    · rcases System.uploads_setUpload.mp hv with ⟨-, rfl⟩ | ⟨hne, hv⟩
      · exact absurd hvlive hlive
      · rw [htext]
        exact fun heq => hne (h.apart k i v u hv hu (Stem.ext heq))
  | inserts row hrow hlive hclosed hholds =>
    exact h.insertRow hu hlive hrow hstem hclosed hholds

theorem ofDelete (h : s.Sound) {d d' : Delete} {a : DeleteAction} {files : Finset String}
    {rows : List BlobRow} (hd : s.deletes j = some d)
    (hnext : d.next s.files s.rows a = some (d', files, rows)) :
    { s.setDelete j d' with files, rows }.Sound := by
  obtain ⟨hid, heffect⟩ := Delete.effect_of_next hnext
  have hread := h.read j d hd
  have hgone := h.gone j d hd
  cases heffect with
  | quiet hunlinking hholds =>
    refine h.setDelete (fun p hp => hread p (hholds p hp)) fun p hp r hr heq => ?_
    obtain ⟨hkey, hno⟩ := hgone p (hholds p hp) r hr heq
    exact ⟨hkey.trans hid.symm, fun hu => hno (hunlinking hu)⟩
  | reads hunlinking hholds =>
    have hrow : ∀ p ∈ d'.holds, ∃ r ∈ s.rows, r.id = d.id ∧ ∃ stem ∈ s.stems,
        stemOf p = stem.text ∧ stemOf r.path = stem.text := by
      intro p hp
      obtain ⟨r, hr, hkey, hpath⟩ := hholds p hp
      obtain ⟨stem, hstem, hpaths⟩ := h.named r hr
      exact ⟨r, hr, hkey, stem, hstem, hpaths p hpath, hpaths _ r.path_mem_paths⟩
    refine h.setDelete (fun p hp => ?_) fun p hp r' hr' heq => ?_
    · obtain ⟨r, hr, -, stem, hstem, hp, hpath⟩ := hrow p hp
      refine ⟨⟨stem, hstem, hp⟩, fun k v hv hopen heq => ?_⟩
      exact h.unclaimed k v hv hopen r hr (hpath.trans (hp.symm.trans heq.symm))
    · obtain ⟨r, hr, hkey, stem, -, hp, hpath⟩ := hrow p hp
      have hsame : r'.id = r.id := h.keyed r' hr' r hr (heq.trans (hp.trans hpath.symm))
      exact ⟨hsame.trans (hkey.trans hid.symm), hunlinking⟩
  | deletes hholds =>
    have hrows : ∀ r ∈ deleteRow s.rows d.id, r ∈ s.rows ∧ r.id ≠ d.id := by
      intro r hr
      simpa [deleteRow] using hr
    refine (h.deleteRows fun r hr => (hrows r hr).1).setDelete
      (fun p hp => hread p (hholds p hp)) fun p hp r hr heq => ?_
    exact absurd (hgone p (hholds p hp) r (hrows r hr).1 heq).1 (hrows r hr).2
  | unlinks p hp hunlinking hholds =>
    have hno : ∀ r ∈ s.rows, stemOf r.path ≠ stemOf p := fun r hr heq =>
      (hgone p hp r hr heq).2 hunlinking
    have hset : (s.setDelete j d').Sound := by
      refine h.setDelete (fun q hq => hread q (hholds q hq)) fun q hq r hr heq => ?_
      exact absurd hunlinking (hgone q (hholds q hq) r hr heq).2
    refine hset.eraseFile (p := stripRoot p) (fun r hr => ?_) fun k v hv hlive => ?_
    · rw [stemOf_stripRoot]
      exact hno r hr
    · rw [stemOf_stripRoot]
      exact (hread p hp).2 k v hv hlive.isOpen

/-- **One step keeps every file of every row.** -/
theorem step (h : s.Sound) {a : Action} (hs : s.step lower a = some s') : s'.Sound := by
  obtain rfl | ⟨i, u, -, hfresh, hphase, rfl⟩ | ⟨i, b, u, u', files, rows, -, hu, hnext, rfl⟩ |
    ⟨j, id, -, rfl⟩ | ⟨j, b, d, d', files, rows, hd, hnext, rfl⟩ := System.step_cases hs
  · exact h
  · exact h.startUpload hfresh (Upload.holds_of_original hphase)
  · exact h.ofUpload hu hnext
  · exact h.setDelete nofun nofun
  · exact h.ofDelete hd hnext

end System.Sound

theorem sound_of_reachable {lower : String → String} {s : System}
    (h : Reachable (System.step lower) {} s) : s.Sound :=
  h.invariant sound_start fun _ _ _ hsound _ hs => hsound.step hs

/-- **Every file of a committed row exists**, after every interleaving of uploads and deletions with
failures, cancellations and crashes between any two steps. -/
theorem files_of_rows (lower : String → String) (s : System)
    (h : Reachable (System.step lower) {} s) (row : BlobRow) (hrow : row ∈ s.rows) :
    row.path ∈ s.files ∧ (∀ p, row.mediumPath = some p → p ∈ s.files) ∧
      ∀ p, row.thumbnailPath = some p → p ∈ s.files := by
  have hpresent := (sound_of_reachable h).present row hrow
  refine ⟨hpresent _ row.path_mem_paths, fun p hp => hpresent p ?_, fun p hp => hpresent p ?_⟩
  · simp [StoredBlobDTO.paths, hp]
  · simp [StoredBlobDTO.paths, hp]

/-! ## A run -/

def photoStem : Stem := ⟨"0199c1a0-0000-7000-8000-000000000001",
  List.all_iff_forall_prop.mp (by decide)⟩

def notesStem : Stem := ⟨"0199c1a0-0000-7000-8000-000000000002",
  List.all_iff_forall_prop.mp (by decide)⟩

/-- An image and a text are uploaded; the image loses its thumbnail to an error, and is deleted by a
process that crashes after the first file. -/
def uploadsAndDeletion : List Action :=
  [.upload 0 photoStem [0xFF, 0xD8, 0xFF, 0xE0] "photo.jpg" .image, .ofUpload 0 .write,
   .upload 1 notesStem [0x61] "notes.txt" .raw, .ofUpload 0 .write,
   .ofUpload 0 (.writeFails true), .ofUpload 1 .write, .ofUpload 0 (.create 1),
   .ofUpload 1 (.create 2), .ofUpload 0 .commit, .delete 0 1, .ofDelete 0 .validate,
   .ofDelete 0 .getPaths, .ofUpload 1 (.commitFails true), .ofDelete 0 .delete,
   .ofDelete 0 .commit, .ofDelete 0 .unlink, .ofDelete 0 .fail]

def notesRow : BlobRow := ⟨⟨"files/0199c1a0-0000-7000-8000-000000000002.txt", none, none⟩, 2⟩

theorem files_of_notesRow : ∃ s, Reachable (System.step id) {} s ∧ s.rows = [notesRow] ∧
    notesRow.path ∈ s.files := by
  have hrun : (runActions (System.step id) (fun _ _ => True) {} uploadsAndDeletion).map
      System.rows = some [notesRow] := by decide +kernel
  obtain ⟨s, hs, hrows⟩ := Option.map_eq_some_iff.mp hrun
  have hreach := Reach.of_runActions hs
  exact ⟨s, hreach, hrows, (files_of_rows id s hreach notesRow (by simp [hrows])).1⟩

end ApiTemplate.Blob
