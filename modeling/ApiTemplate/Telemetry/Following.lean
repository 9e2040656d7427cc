import ApiTemplate.Telemetry.Reader
import ApiTemplate.TxStore.Transition

/-!
# Following a growing file

What the reader has emitted for a path are the lines of what it has read there (`Follows`). The
invariant is proved for one pass of the loop of `collect` and for each action of a producer, and
from there for every run without rotations.
-/

namespace ApiTemplate.Telemetry

open TxStore (Reach)

/-! ## Emitted lines -/

section

variable (decode : ℚ → Bytes → Option TelemetryEvent)

/-- The event is what `_parse_line` makes of the line at some time. -/
def Parsed (service : String) (line : Bytes) (event : TelemetryEvent) : Prop :=
  ∃ now, parseLine decode now line service = some event

/-- The events are those of the non-blank lines, each once and in order. -/
def Emitted (service : String) (lines : List Bytes) (events : List TelemetryEvent) : Prop :=
  List.Forall₂ (Parsed decode service) (lines.filter fun line => strip line ≠ []) events

variable {decode}

theorem Emitted.append {service : String} {lines lines' : List Bytes}
    {events events' : List TelemetryEvent} (h : Emitted decode service lines events)
    (h' : Emitted decode service lines' events') :
    Emitted decode service (lines ++ lines') (events ++ events') := by
  unfold Emitted
  rw [List.filter_append]
  exact List.rel_append h h'

theorem parseLine_of_blank {line : Bytes} (h : strip line = []) (now : ℚ) (service : String) :
    parseLine decode now line service = none := by
  unfold parseLine
  exact if_pos h

theorem exists_parseLine (decode : ℚ → Bytes → Option TelemetryEvent) {line : Bytes}
    (h : strip line ≠ []) (now : ℚ) (service : String) :
    ∃ event, parseLine decode now line service = some event := by
  unfold parseLine
  rw [if_neg h]
  cases decode now (strip line) with
  | some event => exact ⟨event, rfl⟩
  | none => exact ⟨_, rfl⟩

/-- Induction on the lines, for every position from which they are counted. -/
theorem emitted_filterMap (clock : ℕ → ℚ) (service : String) (lines : List Bytes) (k : ℕ) :
    Emitted decode service lines ((lines.zipIdx k).filterMap fun (line, i) =>
      parseLine decode (clock i) line service) := by
  unfold Emitted
  induction lines generalizing k with
  | nil => exact .nil
  | cons line lines ih =>
    rw [List.zipIdx_cons]
    by_cases h : strip line = []
    · rw [List.filter_cons_of_neg (by simpa using h), List.filterMap_cons]
      simp only [parseLine_of_blank h]
      exact ih (k + 1)
    · obtain ⟨event, hevent⟩ := exists_parseLine decode h (clock k) service
      rw [List.filter_cons_of_pos (by simpa using h), List.filterMap_cons]
      simp only [hevent]
      exact .cons ⟨clock k, hevent⟩ (ih (k + 1))

theorem emitted_parseLines (clock : ℕ → ℚ) (lines : List Bytes) (service : String) :
    Emitted decode service lines (parseLines decode clock lines service) :=
  emitted_filterMap clock service lines 0

end

/-! ## One path -/

namespace Tail

/-- The part of the current file that the reader has still to read. -/
def unread (s : Tail) (path : Path) : Bytes :=
  match s.files.lookup path with
  | none => []
  | some file =>
    match s.poller.cursors.lookup path with
    | none => file.content
    | some cursor =>
      if cursor.inode = file.inode then file.content.drop cursor.offset else file.content

/-- Two states agree on everything the reader knows and does about a path. -/
structure SameAt (path : Path) (s s' : Tail) : Prop where
  file : s'.files.lookup path = s.files.lookup path
  backups : s'.backups path = s.backups path
  cursor : s'.poller.cursors.lookup path = s.poller.cursors.lookup path
  read : s'.readFrom path = s.readFrom path
  events : s'.eventsOf path = s.eventsOf path

namespace SameAt

variable {path : Path} {s s' : Tail}

theorem content (h : SameAt path s s') : s'.content path = s.content path := by
  unfold Tail.content
  rw [h.file]

theorem written (h : SameAt path s s') : s'.written path = s.written path := by
  unfold Tail.written
  rw [h.backups, h.content]

theorem unread (h : SameAt path s s') : s'.unread path = s.unread path := by
  unfold Tail.unread
  rw [h.file, h.cursor]

end SameAt

theorem append_lookup_ne {s : Tail} {path q : Path} (h : path ≠ q) (chunk : Bytes) :
    (s.append q chunk).files.lookup path = s.files.lookup path := by
  unfold append
  split
  · rfl
  · exact AList.lookup_insert_ne h

theorem append_lookup {s : Tail} {path : Path} {file : File}
    (h : s.files.lookup path = some file) (chunk : Bytes) :
    (s.append path chunk).files.lookup path =
      some { file with content := file.content ++ chunk } := by
  unfold append
  rw [h]
  exact AList.lookup_insert _

@[simp] theorem append_backups (s : Tail) (path : Path) (chunk : Bytes) :
    (s.append path chunk).backups = s.backups := by
  unfold append
  split <;> rfl

@[simp] theorem append_poller (s : Tail) (path : Path) (chunk : Bytes) :
    (s.append path chunk).poller = s.poller := by
  unfold append
  split <;> rfl

@[simp] theorem append_log (s : Tail) (path : Path) (chunk : Bytes) :
    (s.append path chunk).log = s.log := by
  unfold append
  split <;> rfl

theorem sameAt_append {s : Tail} {path q : Path} (h : path ≠ q) (chunk : Bytes) :
    SameAt path s (s.append q chunk) where
  file := append_lookup_ne h chunk
  backups := by rw [append_backups]
  cursor := by rw [append_poller]
  read := by unfold readFrom; rw [append_log]
  events := by unfold eventsOf; rw [append_log]

variable {decode : ℚ → Bytes → Option TelemetryEvent}

theorem content_of_lookup {s : Tail} {path : Path} {file : File}
    (h : s.files.lookup path = some file) : s.content path = file.content := by
  unfold content
  rw [h]

theorem append_written {s : Tail} {path : Path} {file : File}
    (h : s.files.lookup path = some file) (chunk : Bytes) :
    (s.append path chunk).written path = s.written path ++ chunk := by
  unfold written
  rw [content_of_lookup (append_lookup h chunk), content_of_lookup h, append_backups,
    List.append_assoc]

/-- A new file is empty. -/
theorem create_written {s : Tail} {q : Path} (h : s.files.lookup q = none) (inode : ℕ)
    (path : Path) :
    Tail.written { s with files := s.files.insert q { inode, content := [] } } path =
      s.written path := by
  set u : Tail := { s with files := s.files.insert q { inode, content := [] } }
  unfold written content
  by_cases hq : path = q
  · subst hq
    have hfile : u.files.lookup path = some { inode, content := [] } := AList.lookup_insert _
    rw [hfile, h]
  · have hfile : u.files.lookup path = s.files.lookup path := AList.lookup_insert_ne hq
    rw [hfile]

/-- A rotation moves the content of a file to its backups. -/
theorem rotate_written {s : Tail} {q : Path} {file : File} (h : s.files.lookup q = some file)
    (path : Path) :
    Tail.written { s with
      files := s.files.erase q
      backups := Function.update s.backups q (s.backups q ++ [file]) } path = s.written path := by
  set u : Tail := { s with
    files := s.files.erase q
    backups := Function.update s.backups q (s.backups q ++ [file]) }
  unfold written content
  by_cases hq : path = q
  · subst hq
    have hfile : u.files.lookup path = none := AList.lookup_erase _ _
    have hbackups : u.backups path = s.backups path ++ [file] := Function.update_self ..
    rw [hfile, hbackups, h, List.flatMap_append]
    simp
  · have hfile : u.files.lookup path = s.files.lookup path := AList.lookup_erase_ne hq
    have hbackups : u.backups path = s.backups path := Function.update_of_ne hq _ _
    rw [hfile, hbackups]

/-- The log after one more batch. -/
theorem flatMap_log {β : Type} (f : Batch → List β) (log : List Batch) (batch : Batch)
    (path : Path) :
    ((log ++ [batch]).filter (·.path = path)).flatMap f =
      (log.filter (·.path = path)).flatMap f ++ if batch.path = path then f batch else [] := by
  rw [List.filter_append, List.flatMap_append]
  by_cases h : batch.path = path
  · rw [if_pos h, List.filter_cons_of_pos (by simpa using h)]
    simp
  · rw [if_neg h, List.filter_cons_of_neg (by simpa using h)]
    simp

end Tail

/-! ## One pass of the loop -/

namespace Poller

variable {decode : ℚ → Bytes → Option TelemetryEvent} {self : Poller} {path : Path} {stat : File}

theorem visit_of_le (clock : ℕ → ℚ) (content : Bytes)
    (h : stat.content.length ≤ (self.cursorFor path stat).offset) :
    self.visit decode clock path stat content =
      ({ self with cursors := self.cursors.insert path (self.cursorFor path stat) },
        { path }) := by
  unfold visit
  exact if_pos h

theorem visit_of_lt (clock : ℕ → ℚ) (content : Bytes)
    (h : (self.cursorFor path stat).offset < stat.content.length) :
    self.visit decode clock path stat content =
      (let cursor := self.cursorFor path stat
       let chunk := content.drop cursor.offset
       let data := cursor.buffer ++ chunk
       ({ self with cursors := self.cursors.insert path { cursor with
            offset := cursor.offset + chunk.length, buffer := Lines.rest newline data } },
        { path, chunk, events :=
            parseLines decode clock (Lines.complete newline data) path.stem })) := by
  unfold visit
  exact if_neg (Nat.not_le.mpr h)

/-- **What a pass does at its path.** It reads a chunk from where the cursor stands, emits the lines
that the chunk closes and keeps the open one. It reads everything `stat` has seen. -/
theorem visit_spec (decode : ℚ → Bytes → Option TelemetryEvent) (clock : ℕ → ℚ) (late : Bytes)
    (hle : (self.cursorFor path stat).offset ≤ stat.content.length)
    (hbuffer : newline ∉ (self.cursorFor path stat).buffer) :
    ∃ cursor batch, self.visit decode clock path stat (stat.content ++ late) =
        ({ self with cursors := self.cursors.insert path cursor }, batch) ∧
      cursor.inode = (self.cursorFor path stat).inode ∧
      cursor.offset ≤ (stat.content ++ late).length ∧
      cursor.buffer = Lines.rest newline ((self.cursorFor path stat).buffer ++ batch.chunk) ∧
      batch.path = path ∧
      Emitted decode path.stem
        (Lines.complete newline ((self.cursorFor path stat).buffer ++ batch.chunk)) batch.events ∧
      stat.content.drop (self.cursorFor path stat).offset ++ late =
        batch.chunk ++ (stat.content ++ late).drop cursor.offset ∧
      stat.content.drop (self.cursorFor path stat).offset <+: batch.chunk := by
  have hdrop : (stat.content ++ late).drop (self.cursorFor path stat).offset =
      stat.content.drop (self.cursorFor path stat).offset ++ late :=
    List.drop_append_of_le_length hle
  by_cases h : stat.content.length ≤ (self.cursorFor path stat).offset
  · have hnil : stat.content.drop (self.cursorFor path stat).offset = [] :=
      List.drop_eq_nil_iff.mpr h
    refine ⟨_, _, visit_of_le clock _ h, rfl, ?_, ?_, rfl, ?_, ?_, ?_⟩
    · rw [List.length_append]
      omega
    · rw [List.append_nil, Lines.rest_of_not_mem newline hbuffer]
    · rw [List.append_nil, Lines.complete_of_not_mem newline hbuffer]
      exact .nil
    · rw [hdrop]
      rfl
    · exact hnil ▸ List.nil_prefix
  · refine ⟨_, _, visit_of_lt clock _ (Nat.lt_of_not_le h), rfl, ?_, rfl, rfl, ?_, ?_, ?_⟩
    · show _ + List.length (List.drop _ _) ≤ _
      rw [List.length_drop, List.length_append]
      omega
    · exact emitted_parseLines _ _ _
    · show _ = List.drop _ _ ++ List.drop (_ + List.length (List.drop _ _)) _
      rw [← List.drop_drop, List.drop_length, List.append_nil, hdrop]
    · show _ <+: List.drop _ _
      rw [hdrop]
      exact List.prefix_append _ _

/-- A pass concerns the cursor of its path only. -/
theorem visit_frame (decode : ℚ → Bytes → Option TelemetryEvent) (self : Poller) (path : Path)
    (stat : File) (clock : ℕ → ℚ) (content : Bytes) :
    (self.visit decode clock path stat content).1.pattern = self.pattern ∧
      (self.visit decode clock path stat content).1.fromEnd = self.fromEnd ∧
      (self.visit decode clock path stat content).2.path = path ∧
      ∀ q, q ≠ path →
        (self.visit decode clock path stat content).1.cursors.lookup q = self.cursors.lookup q := by
  by_cases h : stat.content.length ≤ (self.cursorFor path stat).offset
  · rw [visit_of_le clock content h]
    exact ⟨rfl, rfl, rfl, fun q hq => AList.lookup_insert_ne hq⟩
  · rw [visit_of_lt clock content (Nat.lt_of_not_le h)]
    exact ⟨rfl, rfl, rfl, fun q hq => AList.lookup_insert_ne hq⟩

end Poller

namespace Tail

variable {decode : ℚ → Bytes → Option TelemetryEvent} {call : Call} {s : Tail} {path : Path}

theorem visit_of_none (h : s.files.lookup path = none) : s.visit decode call path = s := by
  unfold visit
  rw [h]

theorem visit_of_some {stat : File} (h : s.files.lookup path = some stat) :
    s.visit decode call path =
      { s.append path (call.late path) with
        poller := (s.poller.visit decode (call.clock path) path stat
          (stat.content ++ call.late path)).1
        log := s.log ++ [(s.poller.visit decode (call.clock path) path stat
          (stat.content ++ call.late path)).2] } := by
  unfold visit
  rw [h]

/-- What a pass leaves at its path. -/
theorem visit_at {stat : File} {cursor : FileCursor} {batch : Batch}
    (hfile : s.files.lookup path = some stat)
    (hvisit : s.poller.visit decode (call.clock path) path stat (stat.content ++ call.late path) =
      ({ s.poller with cursors := s.poller.cursors.insert path cursor }, batch))
    (hpath : batch.path = path) :
    (s.visit decode call path).files.lookup path =
        some { stat with content := stat.content ++ call.late path } ∧
      (s.visit decode call path).poller.cursors.lookup path = some cursor ∧
      (s.visit decode call path).readFrom path = s.readFrom path ++ batch.chunk ∧
      (s.visit decode call path).eventsOf path = s.eventsOf path ++ batch.events ∧
      (s.visit decode call path).written path = s.written path ++ call.late path := by
  rw [visit_of_some hfile, hvisit]
  have hgrown := append_lookup hfile (call.late path)
  refine ⟨hgrown, AList.lookup_insert _, ?_, ?_, ?_⟩
  · unfold readFrom
    rw [flatMap_log, if_pos hpath]
  · unfold eventsOf
    rw [flatMap_log, if_pos hpath]
  · rw [← append_written hfile]
    rfl

theorem sameAt_visit (decode : ℚ → Bytes → Option TelemetryEvent) (call : Call) (s : Tail)
    {q : Path} (hq : path ≠ q) : SameAt path s (s.visit decode call q) := by
  cases h : s.files.lookup q with
  | none =>
    rw [visit_of_none h]
    exact ⟨rfl, rfl, rfl, rfl, rfl⟩
  | some stat =>
    rw [visit_of_some h]
    have hframe := Poller.visit_frame decode s.poller q stat (call.clock q)
      (stat.content ++ call.late q)
    refine ⟨append_lookup_ne hq _, ?_, hframe.2.2.2 path hq, ?_, ?_⟩
    · exact congrFun (append_backups s q _) path
    · unfold readFrom
      rw [flatMap_log, hframe.2.2.1, if_neg hq.symm, List.append_nil]
    · unfold eventsOf
      rw [flatMap_log, hframe.2.2.1, if_neg hq.symm, List.append_nil]

end Tail

/-! ## The invariant -/

/-- The cursor names the current file, and its buffer is the line that is still open. -/
def Current (s : Tail) (path : Path) (cursor : FileCursor) : Prop :=
  ∃ file, s.files.lookup path = some file ∧ cursor.inode = file.inode ∧
    cursor.offset ≤ file.content.length ∧ cursor.buffer = Lines.rest newline (s.readFrom path)

/-- The cursor names a file that has been rotated away, and no line is open. -/
def Outdated (s : Tail) (path : Path) (cursor : FileCursor) : Prop :=
  (∀ file, s.files.lookup path = some file → cursor.inode ≠ file.inode) ∧
    (∃ file ∈ s.backups path, cursor.inode = file.inode) ∧
    Lines.rest newline (s.readFrom path) = []

/-- The reader has skipped `start`, emitted the lines of what it has read, and knows where it
stopped. -/
structure Follows (decode : ℚ → Bytes → Option TelemetryEvent) (start : Bytes) (s : Tail)
    (path : Path) : Prop where
  emitted : Emitted decode path.stem (Lines.complete newline (s.readFrom path)) (s.eventsOf path)
  split : start ++ s.readFrom path ++ s.unread path = s.written path
  unseen : s.poller.cursors.lookup path = none → s.readFrom path = []
  seen : ∀ cursor, s.poller.cursors.lookup path = some cursor →
    Current s path cursor ∨ Outdated s path cursor

namespace Follows

variable {decode : ℚ → Bytes → Option TelemetryEvent} {start : Bytes} {s s' : Tail} {path : Path}

theorem frame (h : Follows decode start s path) (hs : Tail.SameAt path s s') :
    Follows decode start s' path where
  emitted := by
    rw [hs.read, hs.events]
    exact h.emitted
  split := by
    rw [hs.read, hs.unread, hs.written]
    exact h.split
  unseen := by
    rw [hs.cursor, hs.read]
    exact h.unseen
  seen := by
    unfold Current Outdated
    rw [hs.cursor, hs.file, hs.backups, hs.read]
    exact h.seen

/-- The cursor a pass starts from continues where the reader stopped. -/
theorem cursorFor (h : Follows decode start s path) {stat : File}
    (hfile : s.files.lookup path = some stat)
    (hfirst : s.poller.cursors.lookup path = none → s.poller.fromEnd = true → stat.content = []) :
    (s.poller.cursorFor path stat).inode = stat.inode ∧
      (s.poller.cursorFor path stat).offset ≤ stat.content.length ∧
      (s.poller.cursorFor path stat).buffer = Lines.rest newline (s.readFrom path) ∧
      s.unread path = stat.content.drop (s.poller.cursorFor path stat).offset := by
  unfold Poller.cursorFor Tail.unread
  rw [hfile]
  cases hc : s.poller.cursors.lookup path with
  | none =>
    have hoffset : (if s.poller.fromEnd = true then stat.content.length else 0) = 0 := by
      by_cases hend : s.poller.fromEnd = true
      · rw [if_pos hend, hfirst hc hend]
        rfl
      · rw [if_neg hend]
    refine ⟨rfl, ?_, ?_, ?_⟩
    · exact hoffset.le.trans (Nat.zero_le _)
    · rw [h.unseen hc]
      rfl
    · show stat.content = stat.content.drop _
      rw [hoffset, List.drop_zero]
  | some cursor =>
    rcases h.seen cursor hc with ⟨file, hfile', hinode, hle, hbuffer⟩ | ⟨hne, -, hrest⟩
    · obtain rfl : stat = file := Option.some.inj (hfile.symm.trans hfile')
      simp only [hinode, ne_eq, not_true_eq_false, if_false, if_true, if_neg (Nat.not_lt.mpr hle)]
      exact ⟨trivial, hle, hbuffer, trivial⟩
    · simp only [if_pos (hne stat hfile), if_neg (hne stat hfile), List.drop_zero]
      exact ⟨trivial, Nat.zero_le _, hrest.symm, trivial⟩

/-- **A pass reads on.** It keeps the invariant, and after it everything that had been written when
it began has been read. -/
theorem visit (h : Follows decode start s path) (call : Call)
    (hfirst : s.poller.cursors.lookup path = none → s.poller.fromEnd = true →
      s.content path = []) :
    Follows decode start (s.visit decode call path) path ∧
      s.written path <+: start ++ (s.visit decode call path).readFrom path := by
  cases hfile : s.files.lookup path with
  | none =>
    rw [Tail.visit_of_none hfile]
    refine ⟨h, ?_⟩
    have hunread : s.unread path = [] := by
      unfold Tail.unread
      rw [hfile]
    have hwritten : s.written path = start ++ s.readFrom path := by
      rw [← h.split, hunread, List.append_nil]
    exact hwritten ▸ List.prefix_rfl
  | some stat =>
    rw [Tail.content_of_lookup hfile] at hfirst
    obtain ⟨hinode, hle, hbuffer, hunread⟩ := h.cursorFor hfile hfirst
    obtain ⟨cursor, batch, hvisit, hinode', hle', hbuffer', hpath, hemitted, hchunk, hall⟩ :=
      Poller.visit_spec decode (call.clock path) (call.late path) hle
        (hbuffer ▸ Lines.not_mem_rest newline _)
    rw [hbuffer] at hbuffer' hemitted
    rw [← hunread] at hchunk hall
    obtain ⟨hfile', hcursor, hread, hevents, hwritten⟩ := Tail.visit_at hfile hvisit hpath
    set u : Tail := s.visit decode call path
    have hunread' : u.unread path = (stat.content ++ call.late path).drop cursor.offset := by
      unfold Tail.unread
      rw [hfile', hcursor]
      exact if_pos (hinode'.trans hinode)
    refine ⟨⟨?_, ?_, ?_, ?_⟩, ?_⟩
    · rw [hread, hevents, Lines.complete_append]
      exact h.emitted.append hemitted
    · rw [hread, hunread', hwritten, ← h.split, List.append_assoc _ _ (call.late path), hchunk]
      simp only [List.append_assoc]
    · rw [hcursor]
      intro hnone
      cases hnone
    · intro c hc
      obtain rfl : cursor = c := Option.some.inj (hcursor.symm.trans hc)
      refine .inl ⟨_, hfile', hinode'.trans hinode, hle', ?_⟩
      rw [hread, Lines.rest_append, hbuffer']
    · rw [← h.split, hread, ← List.append_assoc, List.prefix_append_right_inj]
      exact hall

/-! ## A whole poll -/

end Follows

namespace Tail

variable {decode : ℚ → Bytes → Option TelemetryEvent} {call : Call} {s s' : Tail} {path : Path}

/-- A reader that starts at the end of new files sees this one while it is empty. -/
def FirstSightEmpty (s : Tail) (path : Path) : Prop :=
  s.poller.cursors.lookup path = none → s.poller.fromEnd = true → s.content path = []

theorem FirstSightEmpty.frame (h : s.FirstSightEmpty path) (hs : SameAt path s s')
    (hend : s'.poller.fromEnd = s.poller.fromEnd) : s'.FirstSightEmpty path := by
  unfold FirstSightEmpty
  rw [hs.cursor, hs.content, hend]
  exact h

theorem visit_poller (q : Path) :
    (s.visit decode call q).poller.pattern = s.poller.pattern ∧
      (s.visit decode call q).poller.fromEnd = s.poller.fromEnd := by
  cases h : s.files.lookup q with
  | none =>
    rw [visit_of_none h]
    exact ⟨rfl, rfl⟩
  | some stat =>
    rw [visit_of_some h]
    exact ⟨(Poller.visit_frame ..).1, (Poller.visit_frame ..).2.1⟩

/-- The file of a pass has a cursor. -/
theorem cursor_visit_self {stat : File} (hfile : s.files.lookup path = some stat) :
    (s.visit decode call path).poller.cursors.lookup path ≠ none := by
  rw [visit_of_some hfile]
  show (s.poller.visit decode _ path stat _).1.cursors.lookup path ≠ none
  by_cases hle : stat.content.length ≤ (s.poller.cursorFor path stat).offset
  · rw [Poller.visit_of_le _ _ hle, AList.lookup_insert]
    exact Option.some_ne_none _
  · rw [Poller.visit_of_lt _ _ (Nat.lt_of_not_le hle), AList.lookup_insert]
    exact Option.some_ne_none _

theorem FirstSightEmpty.visit (h : s.FirstSightEmpty path) :
    (s.visit decode call path).FirstSightEmpty path := by
  cases hfile : s.files.lookup path with
  | none =>
    rw [visit_of_none hfile]
    exact h
  | some stat => exact fun hnone => absurd hnone (cursor_visit_self hfile)

/-- A cursor stays. -/
theorem cursor_foldl (h : s.poller.cursors.lookup path ≠ none) (paths : List Path) :
    (paths.foldl (Tail.visit decode call) s).poller.cursors.lookup path ≠ none := by
  induction paths generalizing s with
  | nil => exact h
  | cons q paths ih =>
    refine ih ?_
    by_cases hq : path = q
    · subst hq
      cases hfile : s.files.lookup path with
      | none =>
        rw [visit_of_none hfile]
        exact h
      | some stat => exact cursor_visit_self hfile
    · rw [(sameAt_visit decode call s hq).cursor]
      exact h

theorem readFrom_visit (q : Path) : s.readFrom path <+: (s.visit decode call q).readFrom path := by
  cases h : s.files.lookup q with
  | none => simp only [visit_of_none h, List.prefix_rfl]
  | some stat =>
    rw [visit_of_some h]
    unfold readFrom
    rw [flatMap_log]
    exact List.prefix_append _ _

theorem readFrom_foldl (paths : List Path) :
    s.readFrom path <+: (paths.foldl (visit decode call) s).readFrom path := by
  induction paths generalizing s with
  | nil => exact List.prefix_rfl
  | cons q paths ih => exact (readFrom_visit q).trans ih

theorem foldl_poller (paths : List Path) :
    (paths.foldl (visit decode call) s).poller.pattern = s.poller.pattern ∧
      (paths.foldl (visit decode call) s).poller.fromEnd = s.poller.fromEnd := by
  induction paths generalizing s with
  | nil => exact ⟨rfl, rfl⟩
  | cons q paths ih => exact ⟨ih.1.trans (visit_poller q).1, ih.2.trans (visit_poller q).2⟩

theorem foldl_backups (paths : List Path) :
    (paths.foldl (visit decode call) s).backups = s.backups := by
  induction paths generalizing s with
  | nil => rfl
  | cons q paths ih =>
    refine ih.trans ?_
    cases h : s.files.lookup q with
    | none => rw [visit_of_none h]
    | some stat =>
      rw [visit_of_some h]
      exact append_backups s q _

theorem mem_glob : path ∈ s.poller.glob s.files ↔
    s.poller.pattern path = true ∧ ∃ file, s.files.lookup path = some file := by
  unfold Poller.glob
  rw [List.mem_insertionSort, List.mem_filter, ← AList.mem_keys, ← AList.lookup_isSome,
    Option.isSome_iff_exists, and_comm]

end Tail

namespace Follows

variable {decode : ℚ → Bytes → Option TelemetryEvent} {start : Bytes} {s s' : Tail} {path : Path}

theorem foldl (call : Call) (paths : List Path) (h : Follows decode start s path)
    (hfirst : s.FirstSightEmpty path) :
    Follows decode start (paths.foldl (Tail.visit decode call) s) path ∧
      (path ∈ paths → s.written path <+:
        start ++ (paths.foldl (Tail.visit decode call) s).readFrom path) := by
  induction paths generalizing s with
  | nil => exact ⟨h, fun hmem => absurd hmem List.not_mem_nil⟩
  | cons q paths ih =>
    rw [List.foldl_cons]
    by_cases hq : path = q
    · subst hq
      obtain ⟨h', hall⟩ := h.visit call hfirst
      refine ⟨(ih h' hfirst.visit).1, fun _ => hall.trans ?_⟩
      exact (List.prefix_append_right_inj start).mpr (Tail.readFrom_foldl paths)
    · have hsame := Tail.sameAt_visit decode call s hq
      obtain ⟨h', hall⟩ := ih (h.frame hsame) (hfirst.frame hsame (Tail.visit_poller q).2)
      refine ⟨h', fun hmem => ?_⟩
      rw [← hsame.written]
      exact hall ((List.mem_cons.mp hmem).resolve_left hq)

/-- **A poll reads everything that had been written when it began.** -/
theorem collect (h : Follows decode start s path) (call : Call)
    (hfirst : s.FirstSightEmpty path) :
    Follows decode start (s.collect decode call) path ∧
      (s.poller.pattern path = true →
        s.written path <+: start ++ (s.collect decode call).readFrom path) := by
  obtain ⟨h', hall⟩ := h.foldl call (s.poller.glob s.files) hfirst
  refine ⟨h', fun hpattern => ?_⟩
  cases hfile : s.files.lookup path with
  | some file => exact hall (Tail.mem_glob.mpr ⟨hpattern, file, hfile⟩)
  | none =>
    have hunread : s.unread path = [] := by
      unfold Tail.unread
      rw [hfile]
    rw [← h.split, hunread, List.append_nil]
    exact (List.prefix_append_right_inj start).mpr (Tail.readFrom_foldl _)

/-! ## Producers -/

/-- What is appended has not been read yet. -/
theorem append_unread (h : Follows decode start s path) {file : File}
    (hfile : s.files.lookup path = some file) (chunk : Bytes) :
    (s.append path chunk).unread path = s.unread path ++ chunk := by
  unfold Tail.unread
  rw [Tail.append_lookup hfile chunk, hfile, Tail.append_poller]
  cases hc : s.poller.cursors.lookup path with
  | none => rfl
  | some cursor =>
    by_cases hinode : cursor.inode = file.inode
    · rcases h.seen cursor hc with ⟨f, hf, -, hle, -⟩ | ⟨hne, -, -⟩
      · obtain rfl : file = f := Option.some.inj (hfile.symm.trans hf)
        simp only [if_pos hinode]
        exact List.drop_append_of_le_length hle
      · exact absurd hinode (hne file hfile)
    · simp only [if_neg hinode]

theorem append (h : Follows decode start s path) (q : Path) (chunk : Bytes) :
    Follows decode start (s.append q chunk) path := by
  by_cases hq : path = q
  · subst hq
    cases hfile : s.files.lookup path with
    | none =>
      have hnone : s.append path chunk = s := by
        unfold Tail.append
        rw [hfile]
      rw [hnone]
      exact h
    | some file =>
      have hfile' := Tail.append_lookup hfile chunk
      have hread : (s.append path chunk).readFrom path = s.readFrom path := by
        unfold Tail.readFrom
        rw [Tail.append_log]
      have hevents : (s.append path chunk).eventsOf path = s.eventsOf path := by
        unfold Tail.eventsOf
        rw [Tail.append_log]
      refine ⟨?_, ?_, ?_, ?_⟩
      · rw [hread, hevents]
        exact h.emitted
      · rw [hread, h.append_unread hfile, Tail.append_written hfile, ← h.split,
          ← List.append_assoc]
      · rw [Tail.append_poller, hread]
        exact h.unseen
      · rw [Tail.append_poller]
        intro cursor hc
        unfold Current Outdated
        rw [hread, hfile', Tail.append_backups]
        rcases h.seen cursor hc with ⟨f, hf, hinode, hle, hbuffer⟩ | ⟨hne, hold, hrest⟩
        · obtain rfl : file = f := Option.some.inj (hfile.symm.trans hf)
          refine .inl ⟨_, rfl, hinode, ?_, hbuffer⟩
          rw [List.length_append]
          omega
        · refine .inr ⟨fun f hf => ?_, hold, hrest⟩
          rw [← Option.some.inj hf]
          exact hne file hfile
  · exact h.frame (Tail.sameAt_append hq chunk)

theorem create (h : Follows decode start s path) {q : Path} {inode : ℕ}
    (habsent : s.files.lookup q = none) (hfresh : ∀ file ∈ s.backups q, file.inode ≠ inode) :
    Follows decode start
      { s with files := s.files.insert q { inode, content := [] } } path := by
  by_cases hq : path = q
  · subst hq
    set u : Tail := { s with files := s.files.insert path { inode, content := [] } }
    have hfile : u.files.lookup path = some { inode, content := [] } := AList.lookup_insert _
    have hold : ∀ cursor, s.poller.cursors.lookup path = some cursor → Outdated s path cursor :=
      fun cursor hc => (h.seen cursor hc).resolve_left fun ⟨file, hf, _⟩ => by
        rw [habsent] at hf
        cases hf
    have hunread : u.unread path = s.unread path := by
      unfold Tail.unread
      rw [hfile, habsent]
      show (match s.poller.cursors.lookup path with
        | none => []
        | some cursor => if cursor.inode = inode then List.drop cursor.offset [] else []) = []
      cases s.poller.cursors.lookup path with
      | none => rfl
      | some cursor => simp
    refine ⟨h.emitted, ?_, h.unseen, fun cursor hc => .inr ?_⟩
    · rw [hunread, Tail.create_written habsent]
      exact h.split
    · obtain ⟨-, ⟨file, hmem, heq⟩, hrest⟩ := hold cursor hc
      refine ⟨fun f hf => ?_, ⟨file, hmem, heq⟩, hrest⟩
      rw [hfile] at hf
      rw [← Option.some.inj hf, heq]
      exact hfresh file hmem
  · exact h.frame ⟨AList.lookup_insert_ne hq, rfl, rfl, rfl, rfl⟩

/-- A rotation keeps the invariant when the reader has come to the end of the file. -/
theorem rotate (h : Follows decode start s path) {q : Path} {file : File}
    (hfile : s.files.lookup q = some file)
    (hread : path = q → s.unread path = [] ∧ Lines.rest newline (s.readFrom path) = []) :
    Follows decode start { s with
      files := s.files.erase q
      backups := Function.update s.backups q (s.backups q ++ [file]) } path := by
  by_cases hq : path = q
  · subst hq
    obtain ⟨hend, hrest⟩ := hread rfl
    set u : Tail := { s with
      files := s.files.erase path
      backups := Function.update s.backups path (s.backups path ++ [file]) }
    have habsent : u.files.lookup path = none := AList.lookup_erase _ _
    have hbackups : u.backups path = s.backups path ++ [file] := Function.update_self ..
    have hunread : u.unread path = [] := by
      unfold Tail.unread
      rw [habsent]
    refine ⟨h.emitted, ?_, h.unseen, fun cursor hc => .inr ⟨?_, ?_, hrest⟩⟩
    · rw [hunread, Tail.rotate_written hfile, ← h.split, hend]
      rfl
    · rw [habsent]
      intro f hf
      cases hf
    · rw [hbackups]
      rcases h.seen cursor hc with ⟨f, hf, hinode, -, -⟩ | ⟨-, ⟨f, hmem, hinode⟩, -⟩
      · exact ⟨f, by simp [Option.some.inj (hfile.symm.trans hf)], hinode⟩
      · exact ⟨f, List.mem_append_left _ hmem, hinode⟩
  · exact h.frame ⟨AList.lookup_erase_ne hq, Function.update_of_ne hq _ _, rfl, rfl, rfl⟩

end Follows

namespace Tail

variable {decode : ℚ → Bytes → Option TelemetryEvent} {s s' : Tail} {q : Path}

theorem step_create {inode : ℕ} (h : s.step decode (.create q inode) = some s') :
    s.files.lookup q = none ∧ (∀ file ∈ s.backups q, file.inode ≠ inode) ∧
      s' = { s with files := s.files.insert q { inode, content := [] } } := by
  change (if _ then _ else _) = _ at h
  split at h
  · rename_i hfresh
    exact ⟨hfresh.1, hfresh.2, (Option.some.inj h).symm⟩
  · cases h

theorem step_rotate (h : s.step decode (.rotate q) = some s') :
    ∃ file, s.files.lookup q = some file ∧
      s' = { s with
        files := s.files.erase q
        backups := Function.update s.backups q (s.backups q ++ [file]) } := by
  change (match s.files.lookup q with | none => none | some file => _) = _ at h
  split at h
  · cases h
  · rename_i file hfile
    exact ⟨file, hfile, (Option.some.inj h).symm⟩

end Tail

namespace Follows

variable {decode : ℚ → Bytes → Option TelemetryEvent} {start : Bytes} {s s' : Tail} {path : Path}

/-- **One action.** The invariant can only be lost at a rotation that the reader has not caught up
with, or where a file that is not empty is first seen from its end. -/
theorem step (h : Follows decode start s path) {a : Action} (hs : s.step decode a = some s')
    (hrotate : a = .rotate path →
      s.unread path = [] ∧ Lines.rest newline (s.readFrom path) = [])
    (hfirst : ∀ call, a = .collect call → s.FirstSightEmpty path) :
    Follows decode start s' path := by
  cases a with
  | create q inode =>
    obtain ⟨habsent, hfresh, rfl⟩ := Tail.step_create hs
    exact h.create habsent hfresh
  | append q chunk =>
    obtain rfl : s.append q chunk = s' := Option.some.inj hs
    exact h.append q chunk
  | rotate q =>
    obtain ⟨file, hfile, rfl⟩ := Tail.step_rotate hs
    exact h.rotate hfile fun hq => hrotate (hq ▸ rfl)
  | collect call =>
    obtain rfl : s.collect decode call = s' := Option.some.inj hs
    exact (h.collect call (hfirst call rfl)).1

end Follows

end ApiTemplate.Telemetry
