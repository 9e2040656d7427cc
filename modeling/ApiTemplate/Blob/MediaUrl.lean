import ApiTemplate.Blob.FileSystem
import ApiTemplate.Identity.Repositories

/-!
# Addresses of stored files

`make_media_full_url` and `_delete_sync` on the same stored path. They agree on what the storage
writes and on a leading `/`; a path of the older convention, under `media/`, is deleted as one file
and read as another.
-/

namespace ApiTemplate.Blob

open Identity (makeMediaFullUrl)
open LocalBlobStorage (deleteTarget)

/-- `path.lstrip('/')` -/
def lstripSlash (path : String) : String := String.ofList (path.toList.dropWhile (· == '/'))

/-- `make_full_url`, under the base URL of the application. -/
def makeFullUrl (baseUrl path : String) : String := baseUrl ++ "/" ++ lstripSlash path

theorem lstripSlash_media (path : String) :
    lstripSlash ("media/" ++ lstripSlash path) = "media/" ++ lstripSlash path := by
  rw [lstripSlash, String.toList_append, ← String.toList_inj, String.toList_ofList,
    String.toList_append]
  rfl

theorem makeMediaFullUrl_eq (baseUrl path : String) :
    makeMediaFullUrl baseUrl path = makeFullUrl baseUrl ("media/" ++ lstripSlash path) := by
  rw [makeFullUrl, lstripSlash_media, makeMediaFullUrl, ← String.toList_inj]
  simp [lstripSlash, String.toList_append]

/-- A static route that maps `/media/<x>` to the file `<x>` of the root. -/
def servedFile (root : PosixPath) (baseUrl url : String) : Option PosixPath :=
  let head := (baseUrl ++ "/media/").toList
  if head.isPrefixOf url.toList then
    some ⟨root.absolute, root.parts ++ PosixPath.components (url.toList.drop head.length)⟩
  else none

/-- The address of the path leads to the file that a deletion of the path unlinks. -/
def SameFile (root : PosixPath) (baseUrl path : String) : Prop :=
  ∃ file, servedFile root baseUrl (makeMediaFullUrl baseUrl path) = some file ∧
    deleteTarget root path = some file

theorem servedFile_makeMediaFullUrl (root : PosixPath) (baseUrl path : String) :
    servedFile root baseUrl (makeMediaFullUrl baseUrl path) =
      some ⟨root.absolute, root.parts ++ PosixPath.components path.toList⟩ := by
  have hurl : (makeMediaFullUrl baseUrl path).toList =
      (baseUrl ++ "/media/").toList ++ path.toList.dropWhile (· == '/') := by
    rw [makeMediaFullUrl_eq, makeFullUrl, lstripSlash_media]
    simp [lstripSlash, String.toList_append]
  rw [servedFile, hurl, if_pos (List.isPrefixOf_iff_prefix.mpr (List.prefix_append _ _)),
    List.drop_left, PosixPath.components_dropWhile_sep]

/-! ## The convention of a path -/

theorem toList_removePrefix {head path : String} {rest : List Char}
    (h : path.toList = head.toList ++ rest) : (removePrefix head path).toList = rest := by
  rw [removePrefix, h, if_pos (List.isPrefixOf_iff_prefix.mpr (List.prefix_append _ _)),
    List.drop_left, String.toList_ofList]

theorem removePrefix_of_not {head path : String} (h : ¬ head.toList <+: path.toList) :
    removePrefix head path = path :=
  if_neg fun hprefix => h (List.isPrefixOf_iff_prefix.mp hprefix)

/-- The rest of a path, behind a leading `/`, leads to its own file if it names no root. -/
theorem join_removePrefix_iff (config : AppConfig) (rest : String) :
    config.mediaRoot.join (.parse (removePrefix "media/" rest).toList) =
        ⟨true, config.mediaRoot.parts ++ PosixPath.components rest.toList⟩ ↔
      ¬ "media/".toList <+: rest.toList ∧ rest.toList.head? ≠ some '/' := by
  by_cases hmedia : "media/".toList <+: rest.toList
  · refine iff_of_false (fun heq => ?_) fun h => h.1 hmedia
    obtain ⟨cs, hcs⟩ := hmedia
    -- the root is removed once, but is a component of the address
    have hcomponents : PosixPath.components rest.toList =
        "media".toList :: PosixPath.components cs := by
      rw [← hcs]
      exact PosixPath.components_append_sep "media".toList cs
    rw [toList_removePrefix hcs.symm, hcomponents] at heq
    have hlength := PosixPath.length_join_parse_le config.mediaRoot cs
    rw [heq, List.length_append, List.length_cons] at hlength
    omega
  · rw [removePrefix_of_not hmedia]
    by_cases habsolute : rest.toList.head? = some '/'
    · refine iff_of_false (fun heq => ?_) fun h => h.2 habsolute
      rw [PosixPath.join_parse_of_absolute _ habsolute] at heq
      have hparts := congrArg (fun p => p.parts.length) heq
      have hroot : config.mediaRoot.parts = config.appRoot ++ ["media".toList] := rfl
      simp only [List.length_append, hroot, List.length_singleton] at hparts
      omega
    · rw [PosixPath.join_parse_of_relative _ habsolute]
      exact iff_of_true rfl ⟨hmedia, habsolute⟩

/-- A path leads to one file if and only if it is not empty, has one `/` in front at most, and does
not begin with the root. -/
theorem sameFile_iff (config : AppConfig) (baseUrl path : String) :
    SameFile config.mediaRoot baseUrl path ↔
      path ≠ "" ∧ ¬ "//".toList <+: path.toList ∧ ¬ "media/".toList <+: path.toList ∧
        ¬ "/media/".toList <+: path.toList := by
  unfold SameFile
  rw [servedFile_makeMediaFullUrl]
  simp only [Option.some_inj, exists_eq_left']
  by_cases hempty : path = ""
  · subst hempty
    exact iff_of_false (fun h => Option.some_ne_none _ h.symm) fun h => h.1 rfl
  rw [deleteTarget, if_neg hempty, Option.some_inj, stripRoot]
  have hjoin := join_removePrefix_iff config (removePrefix "/" path)
  have hdouble : "//".toList = '/' :: ['/'] := rfl
  have hroot : "/media/".toList = '/' :: "media/".toList := rfl
  have hmedia : ∃ rest, "media/".toList = 'm' :: rest := ⟨_, rfl⟩
  rw [hdouble, hroot]
  generalize "media/".toList = media at hmedia hjoin ⊢
  obtain ⟨rest, rfl⟩ := hmedia
  obtain ⟨c, cs, hcs⟩ := List.exists_cons_of_ne_nil fun h => hempty (String.toList_inj.mp h)
  by_cases hc : c = '/'
  · subst hc
    have hdrop : (removePrefix "/" path).toList = cs := toList_removePrefix hcs
    have hhead : ['/'] <+: cs ↔ cs.head? = some '/' := by
      cases cs <;> simp [eq_comm]
    rw [hdrop] at hjoin
    rw [hcs, PosixPath.components_sep, List.cons_prefix_cons, List.cons_prefix_cons,
      List.cons_prefix_cons, hhead]
    refine hjoin.trans ?_
    simp [hempty, and_comm]
  · have hslash : ¬ "/".toList <+: path.toList := fun h => by
      rw [hcs] at h
      exact hc (List.cons_prefix_cons.mp h).1.symm
    rw [removePrefix_of_not hslash] at hjoin ⊢
    rw [hcs] at hjoin ⊢
    refine hjoin.trans ?_
    simp [hempty, hc, List.cons_prefix_cons, Ne.symm hc]

/-- A path of the older convention: its address names the root twice. -/
theorem not_sameFile_media : ¬ SameFile (AppConfig.mediaRoot ⟨["app".toList]⟩)
    "http://localhost:8000" "/media/images/a.webp" := by
  rintro ⟨file, hserved, hdeleted⟩
  have hread : servedFile (AppConfig.mediaRoot ⟨["app".toList]⟩) "http://localhost:8000"
      (makeMediaFullUrl "http://localhost:8000" "/media/images/a.webp") =
      some ⟨true, ["app".toList, "media".toList, "media".toList, "images".toList,
        "a.webp".toList]⟩ := by
    rw [servedFile_makeMediaFullUrl]
    rfl
  have hunlinked : deleteTarget (AppConfig.mediaRoot ⟨["app".toList]⟩) "/media/images/a.webp" =
      some ⟨true, ["app".toList, "media".toList, "images".toList, "a.webp".toList]⟩ := by rfl
  rw [hread] at hserved
  rw [hunlinked, ← hserved] at hdeleted
  exact absurd (congrArg (fun file => (file.map fun p => p.parts.length)) hdeleted) (by decide)

end ApiTemplate.Blob
