import ApiTemplate.Blob.Handlers
import ApiTemplate.Stream.PosixPath
import Mathlib.Logic.Function.Basic

/-!
# Files of the media root

`LocalBlobStorage` on a file system: what `_store_sync` writes and `_delete_sync` removes, and where
the paths of a row lead. The directories that a store leaves behind hold no data and are left out.
-/

namespace ApiTemplate.Blob

/-- The files, by their absolute paths. -/
abbrev FileSystem : Type := PosixPath → Option Content

/-- `AppConfig`, with the directory of the application. -/
structure AppConfig where
  appRoot : List (List Char)

/-- `media_root` -/
def AppConfig.mediaRoot (config : AppConfig) : PosixPath :=
  PosixPath.join ⟨true, config.appRoot⟩ (.parse "media".toList)

/-- `image_path` and `file_path`, as paths -/
def BlobKindEnum.dir (kind : BlobKindEnum) : PosixPath := .parse kind.relativeDir.toList

/-! ## Storage -/

namespace LocalBlobStorage

variable (root : PosixPath)

/-- `_write`, where it succeeds -/
def write (fs : FileSystem) (relativeDir : PosixPath) (filename : String) (content : Content) :
    FileSystem × String :=
  let absoluteDir := root.join relativeDir
  (Function.update fs (absoluteDir.join (.parse filename.toList)) (some content),
    String.ofList (relativeDir.join (.parse filename.toList)).asPosix)

def VARIANTS : List String := ["medium", "thumbnail"]

/-- One round of `_make_image_variants`: the variant fails to be built or written, or is written. -/
def makeVariant (relativeDir : PosixPath) (stem : Stem) (built : String → Option Content)
    (state : FileSystem × List (String × Option String)) (variant : String) :
    FileSystem × List (String × Option String) :=
  match built variant with
  | none => (state.1, state.2 ++ [(variant, none)])
  | some content =>
    let written := write root state.1 (relativeDir.join (.parse variant.toList))
      (stem.text ++ "." ++ "webp") content
    (written.1, state.2 ++ [(variant, some written.2)])

/-- `_make_image_variants` -/
def makeImageVariants (fs : FileSystem) (relativeDir : PosixPath) (stem : Stem)
    (built : String → Option Content) : FileSystem × List (String × Option String) :=
  VARIANTS.foldl (makeVariant root relativeDir stem built) (fs, [])

/-- `_store_sync`; nothing is returned where the original cannot be written. -/
def storeSync (lower : String → String) (fs : FileSystem) (content : Content) (name : String)
    (kind : BlobKindEnum) (stem : Stem) (writable : Bool) (built : String → Option Content) :
    FileSystem × Option StoredBlobDTO :=
  let extension := extensionOf lower "bin" name
  if writable then
    let original := write root fs kind.dir (stem.text ++ "." ++ extension) content
    if kind ≠ .image then (original.1, some { path := original.2 })
    else
      let variants := makeImageVariants root original.1 kind.dir stem built
      (variants.1, some {
        path := original.2
        mediumPath := (variants.2.lookup "medium").join
        thumbnailPath := (variants.2.lookup "thumbnail").join })
  else (fs, none)

/-- The file that `_delete_sync` unlinks for a path. -/
def deleteTarget (path : String) : Option PosixPath :=
  if path = "" then none else some (root.join (.parse (stripRoot path).toList))

/-- One round of `_delete_sync` -/
def unlink (fs : FileSystem) (path : String) : FileSystem :=
  match deleteTarget root path with
  | none => fs
  | some file => Function.update fs file none

/-- `_delete_sync` -/
def deleteSync (paths : List String) (fs : FileSystem) : FileSystem :=
  paths.foldl (unlink root) fs

end LocalBlobStorage

/-! ## Stored paths -/

/-- The file of a path below the root. -/
def fileOf (root : PosixPath) (path : String) : PosixPath := root.join (.parse path.toList)

/-- The components of a stored path. -/
def storedParts (kind : BlobKindEnum) (stem : Stem) (extension : String) :
    Target → List (List Char)
  | .original => [kind.relativeDir.toList, (stem.text ++ "." ++ extension).toList]
  | .medium => [kind.relativeDir.toList, "medium".toList, (stem.text ++ "." ++ "webp").toList]
  | .thumbnail => [kind.relativeDir.toList, "thumbnail".toList, (stem.text ++ "." ++ "webp").toList]

section

variable {kind : BlobKindEnum} {stem : Stem} {extension : String} {target : Target}

/-- An extension that makes the name of a file. -/
structure IsExtension (extension : String) : Prop where
  ne : extension.toList ≠ []
  slash : '/' ∉ extension.toList
  dot : '.' ∉ extension.toList

theorem isExtension_webp : IsExtension "webp" := ⟨by decide, by decide, by decide⟩

theorem isExtension_of_mem (h : extension ∈ kind.extensions) : IsExtension extension := by
  have hall : ∀ kind : BlobKindEnum, ∀ e ∈ kind.extensions,
      e.toList ≠ [] ∧ '/' ∉ e.toList ∧ '.' ∉ e.toList := by
    rintro (_ | _) <;> decide
  obtain ⟨hne, hslash, hdot⟩ := hall kind extension h
  exact ⟨hne, hslash, hdot⟩

/-- A text that is one component, and not the parent directory. -/
structure IsName (name : List Char) : Prop where
  slash : '/' ∉ name
  part : PosixPath.isPart name = true
  parent : name ≠ ['.', '.']

theorem isName_file (stem : Stem) (h : IsExtension extension) :
    IsName (stem.text ++ "." ++ extension).toList := by
  have hname : (stem.text ++ "." ++ extension).toList =
      stem.text.toList ++ '.' :: extension.toList := by
    simp [String.toList_append]
  obtain ⟨c, cs, hcs⟩ := List.exists_cons_of_ne_nil h.ne
  have hslash := h.slash
  have hdot := h.dot
  rw [hcs] at hslash hdot
  rw [hname, hcs]
  constructor
  · rw [List.mem_append, List.mem_cons]
    rintro (hc | hc | hc)
    · exact (stem.plain _ hc).2 rfl
    · exact absurd hc (by decide)
    · exact hslash hc
  · refine decide_eq_true ⟨by simp, fun heq => ?_⟩
    have hlength := congrArg List.length heq
    simp only [List.length_append, List.length_cons, List.length_nil] at hlength
    omega
  · intro heq
    have hlength := congrArg List.length heq
    simp only [List.length_append, List.length_cons, List.length_nil] at hlength
    have hstem : stem.text.toList = [] := List.eq_nil_of_length_eq_zero (by omega)
    rw [hstem, List.nil_append] at heq
    exact hdot (by simp_all)

theorem isName_relativeDir (kind : BlobKindEnum) : IsName kind.relativeDir.toList := by
  cases kind <;> exact ⟨by decide, by decide, by decide⟩

theorem isName_of_mem_storedParts (h : IsExtension extension) {part : List Char}
    (hpart : part ∈ storedParts kind stem extension target) : IsName part := by
  have hmedium : IsName "medium".toList := ⟨by decide, by decide, by decide⟩
  have hthumbnail : IsName "thumbnail".toList := ⟨by decide, by decide, by decide⟩
  cases target <;>
    simp only [storedParts, List.mem_cons, List.not_mem_nil, or_false] at hpart
  · rcases hpart with rfl | rfl
    · exact isName_relativeDir kind
    · exact isName_file stem h
  · rcases hpart with rfl | rfl | rfl
    · exact isName_relativeDir kind
    · exact hmedium
    · exact isName_file stem isExtension_webp
  · rcases hpart with rfl | rfl | rfl
    · exact isName_relativeDir kind
    · exact hthumbnail
    · exact isName_file stem isExtension_webp

theorem storedParts_canonical (h : IsExtension extension) (target : Target) :
    PosixPath.IsCanonical ⟨false, storedParts kind stem extension target⟩ :=
  fun _ hpart =>
    ⟨(isName_of_mem_storedParts h hpart).slash, (isName_of_mem_storedParts h hpart).part⟩

/-- A stored path is the text of its components. -/
theorem storedPath_eq (kind : BlobKindEnum) (stem : Stem) (extension : String) (target : Target) :
    storedPath kind stem extension target =
      String.ofList (PosixPath.asPosix ⟨false, storedParts kind stem extension target⟩) := by
  rw [← String.toList_inj]
  cases target <;>
    simp [storedPath, storedParts, PosixPath.asPosix, String.toList_append, List.intercalate]

theorem parse_storedPath (h : IsExtension extension) :
    PosixPath.parse (storedPath kind stem extension target).toList =
      ⟨false, storedParts kind stem extension target⟩ := by
  rw [storedPath_eq, String.toList_ofList, PosixPath.parse_asPosix (storedParts_canonical h target)]

theorem components_storedPath (h : IsExtension extension) :
    PosixPath.components (storedPath kind stem extension target).toList =
      storedParts kind stem extension target :=
  congrArg PosixPath.parts (parse_storedPath h)

/-- The file of a stored path is below the root. -/
theorem fileOf_storedPath (root : PosixPath) (h : IsExtension extension) :
    fileOf root (storedPath kind stem extension target) =
      ⟨root.absolute, root.parts ++ storedParts kind stem extension target⟩ := by
  rw [fileOf, parse_storedPath h]
  rfl

theorem storedPath_injective (h : IsExtension extension) {a b : Target}
    (heq : storedPath kind stem extension a = storedPath kind stem extension b) : a = b := by
  have hparts : storedParts kind stem extension a = storedParts kind stem extension b := by
    have hparse := congrArg (fun path : String => PosixPath.parse path.toList) heq
    simp only [parse_storedPath h] at hparse
    exact (PosixPath.mk.inj hparse).2
  cases a <;> cases b <;> simp_all [storedParts]

theorem storedPath_ne_empty (h : IsExtension extension) :
    storedPath kind stem extension target ≠ "" := by
  intro heq
  have hparse : PosixPath.parse (storedPath kind stem extension target).toList =
      ⟨false, storedParts kind stem extension target⟩ := parse_storedPath h
  rw [heq] at hparse
  cases target <;> cases hparse

end

/-! ## What a store writes -/

namespace LocalBlobStorage

variable {root : PosixPath} {kind : BlobKindEnum} {stem : Stem} {extension : String}
  {fs : FileSystem}

/-- The files of some paths, with their contents. -/
def writeFiles (root : PosixPath) (files : List (String × Content)) (fs : FileSystem) :
    FileSystem :=
  files.foldl (fun fs file => Function.update fs (fileOf root file.1) (some file.2)) fs

/-- The files of an upload whose original is written. -/
def storedFiles (kind : BlobKindEnum) (stem : Stem) (extension : String) (content : Content)
    (built : String → Option Content) : List (String × Content) :=
  (storedPath kind stem extension .original, content) ::
    if kind = .image then
      ((built "medium").map fun c => (storedPath kind stem extension .medium, c)).toList ++
        ((built "thumbnail").map fun c => (storedPath kind stem extension .thumbnail, c)).toList
    else []

theorem dir_eq (kind : BlobKindEnum) : kind.dir = ⟨false, [kind.relativeDir.toList]⟩ := by
  cases kind <;> decide

/-- A write under a relative directory is a write to the stored path. -/
theorem write_eq {dirs : List (List Char)} {filename : String} {target : Target}
    (h : IsExtension extension)
    (hparts : storedParts kind stem extension target = dirs ++ [filename.toList])
    (content : Content) :
    write root fs ⟨false, dirs⟩ filename content =
      (Function.update fs (fileOf root (storedPath kind stem extension target)) (some content),
        storedPath kind stem extension target) := by
  have hmem : filename.toList ∈ storedParts kind stem extension target := by
    rw [hparts]
    simp
  have hname := isName_of_mem_storedParts h hmem
  have hhead : filename.toList.head? ≠ some '/' := fun hhead =>
    hname.slash (List.mem_of_head? hhead)
  have hparse : PosixPath.parse filename.toList = ⟨false, [filename.toList]⟩ := by
    rw [PosixPath.parse, PosixPath.components_part hname.slash hname.part, decide_eq_false hhead]
  rw [fileOf_storedPath root h, storedPath_eq, hparts, write, hparse]
  simp [PosixPath.join]

theorem makeVariant_eq {variant : String} (target : Target) (h : IsExtension extension)
    (hparts : storedParts kind stem extension target =
      [kind.relativeDir.toList, variant.toList] ++ [(stem.text ++ "." ++ "webp").toList])
    (built : String → Option Content) (out : List (String × Option String)) :
    makeVariant root kind.dir stem built (fs, out) variant =
      (writeFiles root
          ((built variant).map fun c => (storedPath kind stem extension target, c)).toList fs,
        out ++ [(variant,
          (built variant).map fun _ => storedPath kind stem extension target)]) := by
  have hmem : variant.toList ∈ storedParts kind stem extension target := by
    rw [hparts]
    simp
  have hname := isName_of_mem_storedParts h hmem
  have hhead : variant.toList.head? ≠ some '/' := fun hhead =>
    hname.slash (List.mem_of_head? hhead)
  have hparse : PosixPath.parse variant.toList = ⟨false, [variant.toList]⟩ := by
    rw [PosixPath.parse, PosixPath.components_part hname.slash hname.part, decide_eq_false hhead]
  have hdir : kind.dir.join ⟨false, [variant.toList]⟩ =
      ⟨false, [kind.relativeDir.toList, variant.toList]⟩ := by
    rw [dir_eq]
    rfl
  unfold makeVariant
  cases built variant with
  | none => rfl
  | some c =>
    simp only [hparse, hdir, write_eq h hparts]
    rfl

theorem writeFiles_append (files more : List (String × Content)) :
    writeFiles root (files ++ more) fs = writeFiles root more (writeFiles root files fs) :=
  List.foldl_append

theorem makeImageVariants_eq (h : IsExtension extension) (built : String → Option Content) :
    makeImageVariants root fs kind.dir stem built =
      (writeFiles root
          (((built "medium").map fun c => (storedPath kind stem extension .medium, c)).toList ++
            ((built "thumbnail").map fun c =>
              (storedPath kind stem extension .thumbnail, c)).toList) fs,
        [("medium", (built "medium").map fun _ => storedPath kind stem extension .medium),
          ("thumbnail",
            (built "thumbnail").map fun _ => storedPath kind stem extension .thumbnail)]) := by
  show makeVariant root kind.dir stem built
    (makeVariant root kind.dir stem built (fs, []) "medium") "thumbnail" = _
  rw [makeVariant_eq .medium h rfl, makeVariant_eq .thumbnail h rfl, writeFiles_append]
  rfl

/-- The paths of an upload whose original is written. -/
def storedDTO (kind : BlobKindEnum) (stem : Stem) (extension : String)
    (built : String → Option Content) : StoredBlobDTO where
  path := storedPath kind stem extension .original
  mediumPath :=
    if kind = .image then (built "medium").map fun _ => storedPath kind stem extension .medium
    else none
  thumbnailPath :=
    if kind = .image then (built "thumbnail").map fun _ => storedPath kind stem extension .thumbnail
    else none

theorem storedDTO_paths (kind : BlobKindEnum) (stem : Stem) (extension : String)
    (content : Content) (built : String → Option Content) :
    (storedDTO kind stem extension built).paths =
      (storedFiles kind stem extension content built).map Prod.fst := by
  cases kind with
  | raw => rfl
  | image =>
    unfold StoredBlobDTO.paths storedDTO storedFiles
    cases built "medium" <;> cases built "thumbnail" <;> rfl

/-- The store writes the files of the upload and returns their paths. -/
theorem storeSync_eq (lower : String → String) (content : Content) (name : String)
    (built : String → Option Content) (h : IsExtension (extensionOf lower "bin" name)) :
    storeSync root lower fs content name kind stem true built =
      (writeFiles root (storedFiles kind stem (extensionOf lower "bin" name) content built) fs,
        some (storedDTO kind stem (extensionOf lower "bin" name) built)) := by
  generalize hextension : extensionOf lower "bin" name = extension at h ⊢
  have horiginal : write root fs kind.dir (stem.text ++ "." ++ extension) content =
      (writeFiles root [(storedPath kind stem extension .original, content)] fs,
        storedPath kind stem extension .original) := by
    rw [dir_eq]
    exact write_eq h rfl content
  unfold storeSync
  rw [if_pos rfl, hextension, horiginal]
  cases kind with
  | raw => rfl
  | image =>
    simp only [makeImageVariants_eq h]
    rfl

/-- Only the written files change. -/
theorem writeFiles_of_not_mem {files : List (String × Content)} {file : PosixPath}
    (h : file ∉ (files.map Prod.fst).map (fileOf root)) :
    writeFiles root files fs file = fs file := by
  induction files generalizing fs with
  | nil => rfl
  | cons head files ih =>
    rw [List.map_cons, List.map_cons, List.mem_cons, not_or] at h
    exact (ih h.2).trans (Function.update_of_ne h.1 _ _)

theorem writeFiles_ne_none {files : List (String × Content)} {file : PosixPath}
    (h : file ∈ (files.map Prod.fst).map (fileOf root) ∨ fs file ≠ none) :
    writeFiles root files fs file ≠ none := by
  induction files generalizing fs with
  | nil => exact h.resolve_left List.not_mem_nil
  | cons head files ih =>
    show writeFiles root files (Function.update fs (fileOf root head.1) (some head.2)) file ≠ none
    refine ih ?_
    by_cases hhead : file = fileOf root head.1
    · right
      rw [hhead, Function.update_self]
      exact Option.some_ne_none _
    · rw [Function.update_of_ne hhead]
      exact h.imp_left fun hmem => (List.mem_cons.mp hmem).resolve_left hhead

/-! ## What a deletion removes -/

theorem deleteTarget_storedPath (root : PosixPath) (h : IsExtension extension) (target : Target) :
    deleteTarget root (storedPath kind stem extension target) =
      some (fileOf root (storedPath kind stem extension target)) := by
  rw [deleteTarget, if_neg (storedPath_ne_empty h), stripRoot_storedPath]
  rfl

/-- The files of the paths are gone, and no others. -/
theorem deleteSync_apply {paths : List String}
    (h : ∀ path ∈ paths, deleteTarget root path = some (fileOf root path)) (file : PosixPath) :
    deleteSync root paths fs file =
      if file ∈ paths.map (fileOf root) then none else fs file := by
  induction paths generalizing fs with
  | nil => rfl
  | cons path paths ih =>
    rw [List.forall_mem_cons] at h
    have hunlink : unlink root fs path = Function.update fs (fileOf root path) none := by
      rw [unlink, h.1]
    show deleteSync root paths (unlink root fs path) file = _
    rw [ih h.2, hunlink, List.map_cons]
    by_cases hpath : file = fileOf root path
    · simp [hpath]
    · simp [hpath]

/-! ## Round trip -/

/-- The name has an extension, so none is made up for it. -/
theorem extensionOf_eq {lower : String → String} {name : String}
    (h : extensionOf lower "" name ∈ kind.extensions) (default : String) :
    extensionOf lower default name = extensionOf lower "" name := by
  have hdot : '.' ∈ name.toList := by
    by_contra hno
    rw [extensionOf, if_neg hno] at h
    exact (isExtension_of_mem h).ne rfl
  rw [extensionOf, extensionOf, if_pos hdot, if_pos hdot]

/-- The files of an upload are among those of its stem. -/
theorem storedFiles_sublist (kind : BlobKindEnum) (stem : Stem) (extension : String)
    (content : Content) (built : String → Option Content) :
    ((storedFiles kind stem extension content built).map Prod.fst).Sublist
      ([.original, .medium, .thumbnail].map (storedPath kind stem extension)) := by
  cases kind with
  | raw => exact .cons_cons _ (List.nil_sublist _)
  | image =>
    refine .cons_cons _ ?_
    rw [if_pos rfl]
    cases built "medium" <;> cases built "thumbnail" <;> simp

theorem exists_target_of_mem {content : Content} {built : String → Option Content} {path : String}
    (h : path ∈ (storedFiles kind stem extension content built).map Prod.fst) :
    ∃ target, path = storedPath kind stem extension target := by
  obtain ⟨target, -, htarget⟩ :=
    List.mem_map.mp ((storedFiles_sublist kind stem extension content built).subset h)
  exact ⟨target, htarget.symm⟩

/-- A stored path leads to a file strictly below the root. -/
theorem storedPath_below (config : AppConfig) (h : IsExtension extension) (target : Target) :
    ['.', '.'] ∉ PosixPath.components (storedPath kind stem extension target).toList ∧
      ∃ below, below ≠ [] ∧ fileOf config.mediaRoot (storedPath kind stem extension target) =
        ⟨true, config.mediaRoot.parts ++ below⟩ := by
  rw [components_storedPath h]
  refine ⟨fun hparent => (isName_of_mem_storedParts h hparent).parent rfl,
    storedParts kind stem extension target, ?_, fileOf_storedPath _ h⟩
  cases target <;> exact List.cons_ne_nil _ _

/-- Where there was no file before, the deletion of what was written restores the files. -/
theorem deleteSync_writeFiles {files : List (String × Content)}
    (htarget : ∀ path ∈ files.map Prod.fst, deleteTarget root path = some (fileOf root path))
    (hfresh : ∀ path ∈ files.map Prod.fst, fs (fileOf root path) = none) :
    deleteSync root (files.map Prod.fst) (writeFiles root files fs) = fs := by
  funext file
  rw [deleteSync_apply htarget]
  by_cases hfile : file ∈ (files.map Prod.fst).map (fileOf root)
  · rw [if_pos hfile]
    obtain ⟨path, hpath, rfl⟩ := List.mem_map.mp hfile
    exact (hfresh path hpath).symm
  · rw [if_neg hfile, writeFiles_of_not_mem hfile]

/-- The files that differ are those that were written. -/
theorem writeFiles_ne_iff {files : List (String × Content)}
    (hfresh : ∀ path ∈ files.map Prod.fst, fs (fileOf root path) = none) (file : PosixPath) :
    writeFiles root files fs file ≠ fs file ↔
      ∃ path ∈ files.map Prod.fst, file = fileOf root path := by
  constructor
  · intro hne
    by_contra hno
    refine hne (writeFiles_of_not_mem fun hfile => hno ?_)
    obtain ⟨path, hpath, hfile⟩ := List.mem_map.mp hfile
    exact ⟨path, hpath, hfile.symm⟩
  · rintro ⟨path, hpath, rfl⟩
    rw [hfresh path hpath]
    exact writeFiles_ne_none (.inl (List.mem_map_of_mem hpath))

/-- An accepted upload with a new stem writes files of its own below the media root, and the
deletion of its row restores what was there. -/
theorem store_delete (config : AppConfig) (lower : String → String) (fs : FileSystem)
    (content : Content) (name : String) (kind : BlobKindEnum) (stem : Stem) (writable : Bool)
    (built : String → Option Content)
    (hcall : BlobUploadValidator.call lower content name kind = .ok ())
    (hfresh : ∀ target, fs (fileOf config.mediaRoot
      (storedPath kind stem (extensionOf lower "" name) target)) = none) :
    (∀ after, storeSync config.mediaRoot lower fs content name kind stem writable built =
      (after, none) → after = fs) ∧
    ∀ after dto, storeSync config.mediaRoot lower fs content name kind stem writable built =
        (after, some dto) →
      dto.paths.Nodup ∧
      (∀ path ∈ dto.paths, ['.', '.'] ∉ PosixPath.components path.toList ∧
        ∃ below, below ≠ [] ∧
          fileOf config.mediaRoot path = ⟨true, config.mediaRoot.parts ++ below⟩) ∧
      extensionOf lower "" name ∈ kind.extensions ∧
      PosixPath.components dto.path.toList = [kind.relativeDir.toList,
        (stem.text ++ "." ++ extensionOf lower "" name).toList] ∧
      (∀ file, after file ≠ fs file ↔ ∃ path ∈ dto.paths, file = fileOf config.mediaRoot path) ∧
      ∀ rows id, rows.find? (·.id = id) = some { dto with id } →
        deleteSync config.mediaRoot (getPaths rows id) after = fs := by
  have hmem := extension_of_call hcall ""
  have hextension := isExtension_of_mem hmem
  have hbin := extensionOf_eq hmem "bin"
  cases writable with
  | false =>
    refine ⟨fun after hstore => (Prod.mk.inj hstore).1.symm, fun after dto hstore => ?_⟩
    cases (Prod.mk.inj hstore).2
  | true =>
    rw [storeSync_eq lower content name built (hbin ▸ hextension), hbin]
    generalize extensionOf lower "" name = extension at hmem hextension hfresh ⊢
    refine ⟨fun after hstore => ?_, fun after dto hstore => ?_⟩
    · cases (Prod.mk.inj hstore).2
    obtain ⟨rfl, hdto⟩ := Prod.mk.inj hstore
    obtain rfl := Option.some.inj hdto
    have htarget : ∀ path ∈ (storedFiles kind stem extension content built).map Prod.fst,
        ∃ target, path = storedPath kind stem extension target := fun _ => exists_target_of_mem
    have hnew : ∀ path ∈ (storedFiles kind stem extension content built).map Prod.fst,
        fs (fileOf config.mediaRoot path) = none := by
      intro path hpath
      obtain ⟨target, rfl⟩ := htarget path hpath
      exact hfresh target
    rw [storedDTO_paths kind stem extension content built]
    refine ⟨?_, fun path hpath => ?_, hmem, components_storedPath hextension,
      writeFiles_ne_iff hnew, fun rows id hrow => ?_⟩
    · refine (storedFiles_sublist kind stem extension content built).nodup ?_
      exact List.Nodup.map (fun _ _ => storedPath_injective hextension) (by decide)
    · obtain ⟨target, rfl⟩ := htarget path hpath
      exact storedPath_below config hextension target
    · have hpaths : getPaths rows id =
          (storedFiles kind stem extension content built).map Prod.fst := by
        rw [getPaths, hrow, ← storedDTO_paths kind stem extension content built]
        refine List.filter_eq_self.mpr fun path hpath => decide_eq_true ?_
        rw [storedDTO_paths kind stem extension content built] at hpath
        obtain ⟨target, rfl⟩ := htarget path hpath
        exact storedPath_ne_empty hextension
      rw [hpaths]
      refine deleteSync_writeFiles (fun path hpath => ?_) hnew
      obtain ⟨target, rfl⟩ := htarget path hpath
      exact deleteTarget_storedPath config.mediaRoot hextension target

def pictureStem : Stem := ⟨"0199c1a0-0000-7000-8000-000000000003",
  List.all_iff_forall_prop.mp (by decide)⟩

/-- A picture with its two variants, in an empty file system. -/
theorem store_delete_png : ∃ after dto,
    storeSync (AppConfig.mediaRoot ⟨["app".toList]⟩) id (fun _ => none)
        [0x89, 0x50, 0x4E, 0x47, 0x0D, 0x0A, 0x1A, 0x0A] "a.b.png" .image pictureStem true
        (fun variant => some (variant.toList.map Char.toUInt8)) =
      (after, some dto) ∧ dto.paths.length = 3 ∧
    deleteSync (AppConfig.mediaRoot ⟨["app".toList]⟩) (getPaths [{ dto with id := 1 }] 1) after =
      fun _ => none := by
  have hspec := store_delete ⟨["app".toList]⟩ id (fun _ => none)
    [0x89, 0x50, 0x4E, 0x47, 0x0D, 0x0A, 0x1A, 0x0A] "a.b.png" .image pictureStem true
    (fun variant => some (variant.toList.map Char.toUInt8)) (by rfl) (fun _ => rfl)
  refine ⟨_, _, rfl, rfl, ?_⟩
  exact (hspec.2 _ _ rfl).2.2.2.2.2 _ 1 rfl

end LocalBlobStorage

end ApiTemplate.Blob
