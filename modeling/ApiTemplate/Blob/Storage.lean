import Mathlib.Data.Bool.AllAny
import Mathlib.Data.List.TakeWhile
import Mathlib.Tactic.Common

/-!
# Uploads and their paths

What `BlobUploadValidator` admits, and the paths that `LocalBlobStorage` gives to the files of an
upload. The paths of an upload have its stem for their name (`stemOf`), so the uploads of different
stems share no file.
-/

namespace ApiTemplate.Blob

abbrev Content : Type := List UInt8

inductive BlobKindEnum
  | raw
  | image
  deriving DecidableEq

/-! ## Validation -/

inductive AppExceptionStatusCodes
  | fileSizeLimitExceeded
  | unsupportedFileFormat
  | objectNotFound
  deriving DecidableEq

structure AppExceptionDetail where
  message : String
  status : AppExceptionStatusCodes
  deriving DecidableEq

def MAX_BLOB_SIZE_BYTES : ℕ := 15 * 1024 * 1024

def MAX_IMAGE_SIZE_BYTES : ℕ := 10 * 1024 * 1024

def ALLOWED_FILE_SIGNATURES : List (String × List Content) :=
  [("pdf", [[0x25, 0x50, 0x44, 0x46, 0x2D]]),
   ("zip", [[0x50, 0x4B, 0x03, 0x04], [0x50, 0x4B, 0x05, 0x06], [0x50, 0x4B, 0x07, 0x08]]),
   ("rar", [[0x52, 0x61, 0x72, 0x21, 0x1A, 0x07, 0x00],
     [0x52, 0x61, 0x72, 0x21, 0x1A, 0x07, 0x01, 0x00]]),
   ("docx", [[0x50, 0x4B, 0x03, 0x04]]),
   ("xlsx", [[0x50, 0x4B, 0x03, 0x04]]),
   ("pptx", [[0x50, 0x4B, 0x03, 0x04]]),
   ("csv", []),
   ("txt", [])]

def ALLOWED_IMAGE_SIGNATURES : List (String × List Content) :=
  [("png", [[0x89, 0x50, 0x4E, 0x47, 0x0D, 0x0A, 0x1A, 0x0A]]),
   ("jpg", [[0xFF, 0xD8, 0xFF]]),
   ("jpeg", [[0xFF, 0xD8, 0xFF]]),
   ("gif", [[0x47, 0x49, 0x46, 0x38, 0x37, 0x61], [0x47, 0x49, 0x46, 0x38, 0x39, 0x61]]),
   ("webp", [[0x52, 0x49, 0x46, 0x46]])]

def BlobKindEnum.signatures : BlobKindEnum → List (String × List Content)
  | raw => ALLOWED_FILE_SIGNATURES
  | image => ALLOWED_IMAGE_SIGNATURES

def BlobKindEnum.maxSize : BlobKindEnum → ℕ
  | raw => MAX_BLOB_SIZE_BYTES
  | image => MAX_IMAGE_SIZE_BYTES

/-- The characters after the last occurrence of one, or all of them. -/
def afterLast (sep : Char) (cs : List Char) : List Char :=
  (cs.reverse.takeWhile (· ≠ sep)).reverse

section

variable (lower : String → String)

/-- `name.rsplit(".", 1)[-1].lower() if "." in name else default` -/
def extensionOf (default name : String) : String :=
  if '.' ∈ name.toList then lower (String.ofList (afterLast '.' name.toList)) else default

/-- `_validate_signature` -/
def validateSignature (content : Content) (filename : String) (kind : BlobKindEnum) :
    Except AppExceptionDetail Unit :=
  let extension := extensionOf lower "" filename
  match kind.signatures.lookup extension with
  | none => .error ⟨"Extension ." ++ extension ++ " is not supported", .unsupportedFileFormat⟩
  | some signatures =>
    if signatures = [] ∨ signatures.any (fun s => content.take s.length = s) then .ok ()
    else .error ⟨"File content does not match the ." ++ extension ++ " extension",
      .unsupportedFileFormat⟩

/-- `BlobUploadValidator` -/
def BlobUploadValidator.call (content : Content) (name : String) (kind : BlobKindEnum) :
    Except AppExceptionDetail Unit :=
  if content.length > kind.maxSize then
    .error ⟨"File size limit exceeded", .fileSizeLimitExceeded⟩
  else validateSignature lower content name kind

end

/-! ## Paths -/

/-- The text of a `uuid7`. -/
structure Stem where
  text : String
  plain : ∀ c ∈ text.toList, c ≠ '.' ∧ c ≠ '/'

theorem Stem.ext {a b : Stem} (h : a.text = b.text) : a = b := by
  cases a
  cases b
  cases h
  rfl

instance : DecidableEq Stem := fun _ _ => decidable_of_iff _ ⟨Stem.ext, congrArg Stem.text⟩

/-- `image_path` and `file_path` -/
def BlobKindEnum.relativeDir : BlobKindEnum → String
  | raw => "files"
  | image => "images"

/-- The original and the two variants of an image. -/
inductive Target
  | original
  | medium
  | thumbnail
  deriving DecidableEq

/-- The path of a file of an upload, relative to the media root. -/
def storedPath (kind : BlobKindEnum) (stem : Stem) (extension : String) : Target → String
  | .original => kind.relativeDir ++ "/" ++ (stem.text ++ "." ++ extension)
  | .medium => kind.relativeDir ++ "/medium" ++ "/" ++ (stem.text ++ "." ++ "webp")
  | .thumbnail => kind.relativeDir ++ "/thumbnail" ++ "/" ++ (stem.text ++ "." ++ "webp")

/-- `str.removeprefix` -/
def removePrefix (head path : String) : String :=
  if head.toList.isPrefixOf path.toList then String.ofList (path.toList.drop head.toList.length)
  else path

/-- `_strip_root` -/
def stripRoot (path : String) : String := removePrefix "media/" (removePrefix "/" path)

/-- The name of the file of a path, up to the first dot. -/
def stemOf (path : String) : String :=
  String.ofList ((afterLast '/' path.toList).takeWhile (· ≠ '.'))

/-! ## Files of an upload -/

theorem afterLast_of_not_mem {sep : Char} {cs : List Char} (h : sep ∉ cs) :
    afterLast sep cs = cs := by
  have hall : ∀ c ∈ cs.reverse, decide (c ≠ sep) = true := fun c hc =>
    decide_eq_true (ne_of_mem_of_not_mem (List.mem_reverse.mp hc) h)
  unfold afterLast
  rw [List.takeWhile_eq_self_iff.mpr hall, List.reverse_reverse]

/-- What is in front of a separator does not matter. -/
theorem afterLast_of_sep (sep : Char) (pre cs : List Char) :
    afterLast sep (pre ++ sep :: cs) = afterLast sep cs := by
  unfold afterLast
  rw [List.reverse_append, List.reverse_cons, List.append_assoc, List.takeWhile_append]
  split
  · rename_i hlength
    have hself : cs.reverse.takeWhile (· ≠ sep) = cs.reverse :=
      (List.takeWhile_prefix _).eq_of_length hlength
    rw [hself]
    simp
  · rfl

theorem stemOf_of_sep {dir file : String} :
    stemOf (dir ++ "/" ++ file) = stemOf file := by
  have hlist : (dir ++ "/" ++ file).toList = dir.toList ++ '/' :: file.toList := by
    simp [String.toList_append]
  unfold stemOf
  rw [hlist, afterLast_of_sep]

theorem stemOf_file (stem : Stem) {extension : String} (h : '/' ∉ extension.toList) :
    stemOf (stem.text ++ "." ++ extension) = stem.text := by
  have hlist : (stem.text ++ "." ++ extension).toList =
      stem.text.toList ++ '.' :: extension.toList := by
    simp [String.toList_append]
  have hsep : '/' ∉ stem.text.toList ++ '.' :: extension.toList := by
    rw [List.mem_append, List.mem_cons]
    rintro (hc | hc | hc)
    · exact (stem.plain _ hc).2 rfl
    · exact absurd hc (by decide)
    · exact h hc
  have hall : ∀ c ∈ stem.text.toList, decide (c ≠ '.') = true := fun c hc =>
    decide_eq_true (stem.plain c hc).1
  unfold stemOf
  rw [hlist, afterLast_of_not_mem hsep, List.takeWhile_append_of_pos hall]
  simp

/-- The files of an upload have its stem. -/
theorem stemOf_storedPath (kind : BlobKindEnum) (stem : Stem) {extension : String}
    (h : '/' ∉ extension.toList) (target : Target) :
    stemOf (storedPath kind stem extension target) = stem.text := by
  cases target with
  | original => rw [storedPath, stemOf_of_sep, stemOf_file stem h]
  | medium | thumbnail => rw [storedPath, stemOf_of_sep, stemOf_file stem (by decide)]

/-- The stem is not in the prefix that is removed. -/
theorem stemOf_removePrefix {head path : String} (dir : String) (h : head = dir ++ "/") :
    stemOf (removePrefix head path) = stemOf path := by
  unfold removePrefix
  split
  · rename_i hprefix
    obtain ⟨rest, hrest⟩ := List.isPrefixOf_iff_prefix.mp hprefix
    have hpath : path = dir ++ "/" ++ String.ofList rest := by
      rw [← String.toList_inj, ← hrest, h]
      simp [String.toList_append]
    rw [← hrest, List.drop_left, hpath, stemOf_of_sep]
  · rfl

theorem stemOf_stripRoot (path : String) : stemOf (stripRoot path) = stemOf path :=
  (stemOf_removePrefix "media" (by decide)).trans (stemOf_removePrefix "" (by decide))

theorem removePrefix_of_ne {head path : String} {c d : Char} {cs ds : List Char}
    (hhead : head.toList = c :: cs) (hpath : path.toList = d :: ds) (hne : c ≠ d) :
    removePrefix head path = path :=
  if_neg (by simp [hhead, hpath, List.isPrefixOf, hne])

/-- A stored path is relative to the media root. -/
theorem stripRoot_storedPath (kind : BlobKindEnum) (stem : Stem) (extension : String)
    (target : Target) : stripRoot (storedPath kind stem extension target) =
      storedPath kind stem extension target := by
  have hhead : ∃ d ds, (storedPath kind stem extension target).toList = d :: ds ∧
      (d = 'f' ∨ d = 'i') := by
    cases kind <;> cases target <;>
      simp [storedPath, BlobKindEnum.relativeDir, String.toList_append]
  obtain ⟨d, ds, hpath, hd⟩ := hhead
  have hslash : '/' ≠ d ∧ 'm' ≠ d := by rcases hd with rfl | rfl <;> decide
  rw [stripRoot, removePrefix_of_ne rfl hpath hslash.1,
    removePrefix_of_ne (by rfl) hpath hslash.2]

/-! ## Supported extensions -/

/-- The extensions that the validator admits. -/
def BlobKindEnum.extensions (kind : BlobKindEnum) : List String := kind.signatures.map Prod.fst

/-- An admitted extension has no separator of directories. -/
theorem slash_not_mem_extension {kind : BlobKindEnum} {extension : String}
    (h : extension ∈ kind.extensions) : '/' ∉ extension.toList := by
  have hall : ∀ kind : BlobKindEnum, ∀ e ∈ kind.extensions, '/' ∉ e.toList := by
    rintro (_ | _) <;> decide
  exact hall kind extension h

/-- What is admitted has an admitted extension, which is the one of its file. -/
theorem extension_of_call {lower : String → String} {content : Content} {name : String}
    {kind : BlobKindEnum} (h : BlobUploadValidator.call lower content name kind = .ok ())
    (default : String) : extensionOf lower default name ∈ kind.extensions := by
  unfold BlobUploadValidator.call at h
  split at h
  · cases h
  unfold validateSignature at h
  cases hlookup : kind.signatures.lookup (extensionOf lower "" name) with
  | none => simp [hlookup] at h
  | some signatures =>
    obtain ⟨l₁, l₂, hl, -⟩ := List.lookup_eq_some_iff.mp hlookup
    have hpair : (extensionOf lower "" name, signatures) ∈ kind.signatures := by
      rw [hl]
      simp
    have hmem : extensionOf lower "" name ∈ kind.extensions := List.mem_map_of_mem hpair
    have hdot : '.' ∈ name.toList := by
      by_contra hno
      rw [extensionOf, if_neg hno] at hmem
      revert hmem
      cases kind <;> decide
    rw [extensionOf, if_pos hdot] at hmem ⊢
    exact hmem

end ApiTemplate.Blob
