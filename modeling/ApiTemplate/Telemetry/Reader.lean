import ApiTemplate.Stream.Lines
import ApiTemplate.Stream.Utf8
import ApiTemplate.Telemetry.Event
import Mathlib.Data.List.AList
import Mathlib.Data.List.Lex
import Mathlib.Data.List.Sort
import Mathlib.Data.String.Basic

/-!
# The tail reader

`_Poller.collect` and `_parse_line`, over a directory of growing files. The JSON decoder of records
is a parameter: it returns an event, or nothing where it raises `DecodeError`.
-/

namespace ApiTemplate.Telemetry

/-! ## Files -/

/-- A path under the directory of the reader, as its parts. `str(path)` determines it. -/
structure Path where
  parts : List String
  deriving DecidableEq

namespace Path

/-- Split a file name at its last dot, unless the dot is its first or last character. -/
def stemOf (name : List Char) : List Char :=
  let suffix := name.reverse.takeWhile (· ≠ '.')
  let stem := (name.reverse.drop (suffix.length + 1)).reverse
  if suffix = [] ∨ stem = [] then name else stem

/-- `path.stem` -/
def stem (path : Path) : String :=
  match path.parts.getLast? with
  | none => ""
  | some name => String.ofList (stemOf name.toList)

end Path

structure File where
  inode : ℕ
  content : Bytes

/-- The files under the directory of the reader. -/
abbrev FileSystem : Type := AList fun _ : Path => File

def newline : UInt8 := 10

/-! ## Lines -/

/-- The bytes `bytes.strip` removes. -/
def isBlankByte (b : UInt8) : Bool := (9 ≤ b && b ≤ 13) || b = 32

def strip (line : Bytes) : Bytes :=
  ((line.dropWhile isBlankByte).reverse.dropWhile isBlankByte).reverse

section

variable (decode : ℚ → Bytes → Option TelemetryEvent)

/-- `_parse_line`, with the clock where the record needs a default `epoch`. -/
def parseLine (now : ℚ) (line : Bytes) (service : String) : Option TelemetryEvent :=
  let line := strip line
  if line = [] then none
  else
    match decode now line with
    | some event => some event
    | none =>
      some { service, level := "INFO", kind := KIND_LOG, epoch := now,
             message := some (Utf8.decodeReplace line) }

/-- The events of some lines; the clock is read once for each of them. -/
def parseLines (clock : ℕ → ℚ) (lines : List Bytes) (service : String) : List TelemetryEvent :=
  lines.zipIdx.filterMap fun (line, i) => parseLine decode (clock i) line service

end

/-! ## The poller -/

structure FileCursor where
  inode : ℕ
  offset : ℕ := 0
  buffer : Bytes := []

/-- `_Poller`. The directory and the pattern appear as the paths they select. -/
structure Poller where
  pattern : Path → Bool
  fromEnd : Bool
  cursors : AList fun _ : Path => FileCursor := ∅

/-- What one pass of the loop of `collect` reads from a file, and the events it appends. -/
structure Batch where
  path : Path
  chunk : Bytes := []
  events : List TelemetryEvent := []

namespace Poller

/-- The cursor after the inode and the size of the file are checked. -/
def cursorFor (self : Poller) (path : Path) (stat : File) : FileCursor :=
  match self.cursors.lookup path with
  | none => { inode := stat.inode, offset := if self.fromEnd then stat.content.length else 0 }
  | some cursor =>
    if cursor.inode ≠ stat.inode then { inode := stat.inode }
    else if stat.content.length < cursor.offset then { cursor with offset := 0, buffer := [] }
    else cursor

/-- One pass of the loop of `collect`. The file has grown to `content` when it is read. -/
def visit (decode : ℚ → Bytes → Option TelemetryEvent) (clock : ℕ → ℚ) (self : Poller)
    (path : Path) (stat : File) (content : Bytes) : Poller × Batch :=
  let cursor := self.cursorFor path stat
  if stat.content.length ≤ cursor.offset then
    ({ self with cursors := self.cursors.insert path cursor }, { path })
  else
    let chunk := content.drop cursor.offset
    let data := cursor.buffer ++ chunk
    let cursor :=
      { cursor with offset := cursor.offset + chunk.length, buffer := Lines.rest newline data }
    ({ self with cursors := self.cursors.insert path cursor },
      { path, chunk, events := parseLines decode clock (Lines.complete newline data) path.stem })

/-- `sorted(self.directory.rglob(self.pattern))` -/
def glob (self : Poller) (files : FileSystem) : List Path :=
  (files.keys.filter self.pattern).insertionSort fun p q => p.parts ≤ q.parts

end Poller

/-! ## Producers and polls -/

/-- The files, the reader that polls them and everything it has returned. `backups` are the files a
rotation has renamed to names the pattern does not match. -/
structure Tail where
  files : FileSystem := ∅
  backups : Path → List File := fun _ => []
  poller : Poller
  log : List Batch := []

/-- What the environment does during a call of `collect`: the bytes that reach a file between its
`stat` and its `read`, and the readings of the clock. -/
structure Call where
  late : Path → Bytes := fun _ => []
  clock : Path → ℕ → ℚ := fun _ _ => 0

inductive Action
  | create (path : Path) (inode : ℕ)
  | append (path : Path) (chunk : Bytes)
  | rotate (path : Path)
  | collect (call : Call)

namespace Tail

def append (s : Tail) (path : Path) (chunk : Bytes) : Tail :=
  match s.files.lookup path with
  | none => s
  | some file =>
    { s with files := s.files.insert path { file with content := file.content ++ chunk } }

section

variable (decode : ℚ → Bytes → Option TelemetryEvent)

/-- One pass of the loop, in the world. A file that `stat` does not find is skipped. -/
def visit (call : Call) (s : Tail) (path : Path) : Tail :=
  match s.files.lookup path with
  | none => s
  | some stat =>
    let grown := s.append path (call.late path)
    let (poller, batch) :=
      s.poller.visit decode (call.clock path) path stat (stat.content ++ call.late path)
    { grown with poller, log := s.log ++ [batch] }

/-- `_Poller.collect`. The list it returns are the events of the batches it appends to the log. -/
def collect (call : Call) (s : Tail) : Tail :=
  (s.poller.glob s.files).foldl (visit decode call) s

/-- A producer creates, extends or renames a file, or the reader polls. An inode is not reused
for the same path. -/
def step (s : Tail) : Action → Option Tail
  | .create path inode =>
    if s.files.lookup path = none ∧ ∀ file ∈ s.backups path, file.inode ≠ inode then
      some { s with files := s.files.insert path { inode, content := [] } }
    else none
  | .append path chunk => some (s.append path chunk)
  | .rotate path =>
    match s.files.lookup path with
    | none => none
    | some file =>
      some { s with
        files := s.files.erase path
        backups := Function.update s.backups path (s.backups path ++ [file]) }
  | .collect call => some (s.collect decode call)

end

/-! ## Observations of a run -/

def content (s : Tail) (path : Path) : Bytes :=
  match s.files.lookup path with
  | none => []
  | some file => file.content

/-- Everything written at a path, across rotations. -/
def written (s : Tail) (path : Path) : Bytes :=
  (s.backups path).flatMap File.content ++ s.content path

/-- The bytes read from a path so far. -/
def readFrom (s : Tail) (path : Path) : Bytes :=
  (s.log.filter (·.path = path)).flatMap Batch.chunk

/-- The events emitted for a path so far, over all polls. -/
def eventsOf (s : Tail) (path : Path) : List TelemetryEvent :=
  (s.log.filter (·.path = path)).flatMap Batch.events

end Tail

end ApiTemplate.Telemetry
