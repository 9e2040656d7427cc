import ApiTemplate.Telemetry.Following

/-!
# Runs of the reader

Three kinds of runs. Without rotations, a reader that starts at the top emits exactly the lines of
what it has read. A reader that starts at the end skips what it finds at its first poll, and any
file that is not empty when it is first seen. With rotations, nothing is lost as long as the reader
comes to the end of every file before it is renamed.
-/

namespace ApiTemplate.Telemetry

open TxStore (Reach runActions)

variable {decode : ℚ → Bytes → Option TelemetryEvent}

/-- A reader that has not polled yet. -/
def Tail.start (files : FileSystem) (pattern : Path → Bool) (fromEnd : Bool) : Tail :=
  { files, poller := { pattern, fromEnd } }

def Action.rotates : Action → Bool
  | .rotate _ => true
  | _ => false

/-- No file is rotated away. -/
def NoRotation (_ : Tail) (a : Action) : Prop := a.rotates = false

instance (s : Tail) (a : Action) : Decidable (NoRotation s a) :=
  inferInstanceAs (Decidable (_ = _))

/-- What a step leaves as it is. -/
theorem step_frame {s s' : Tail} {a : Action} (hs : s.step decode a = some s') :
    s'.poller.pattern = s.poller.pattern ∧ s'.poller.fromEnd = s.poller.fromEnd ∧
      (NoRotation s a → s'.backups = s.backups) := by
  cases a with
  | create q inode =>
    obtain ⟨-, -, rfl⟩ := Tail.step_create hs
    exact ⟨rfl, rfl, fun _ => rfl⟩
  | append q chunk =>
    obtain rfl : s.append q chunk = s' := Option.some.inj hs
    rw [Tail.append_poller, Tail.append_backups]
    exact ⟨rfl, rfl, fun _ => rfl⟩
  | rotate q =>
    obtain ⟨file, -, rfl⟩ := Tail.step_rotate hs
    exact ⟨rfl, rfl, fun h => by cases h⟩
  | collect call =>
    obtain rfl : s.collect decode call = s' := Option.some.inj hs
    exact ⟨(Tail.foldl_poller _).1, (Tail.foldl_poller _).2, fun _ => Tail.foldl_backups _⟩

/-! ## A reader that starts at the top -/

/-- What holds of every path in runs without rotations. -/
structure Reading (decode : ℚ → Bytes → Option TelemetryEvent) (start : Bytes) (s : Tail)
    (path : Path) : Prop where
  follows : Follows decode start s path
  backups : s.backups path = []

theorem Reading.written {start : Bytes} {s : Tail} {path : Path}
    (h : Reading decode start s path) : s.written path = s.content path := by
  unfold Tail.written
  rw [h.backups]
  rfl

theorem Reading.step {start : Bytes} {s s' : Tail} {path : Path} {a : Action}
    (h : Reading decode start s path) (hrot : NoRotation s a)
    (hs : s.step decode a = some s')
    (hfirst : ∀ call, a = .collect call → s.FirstSightEmpty path) :
    Reading decode start s' path := by
  refine ⟨h.follows.step hs (fun ha => ?_) hfirst, ?_⟩
  · subst ha
    cases hrot
  · rw [(step_frame hs).2.2 hrot, h.backups]

/-- The bytes before the cursor are those skipped and those read. -/
theorem Reading.take {start : Bytes} {s : Tail} {path : Path} {cursor : FileCursor}
    (h : Reading decode start s path) (hc : s.poller.cursors.lookup path = some cursor) :
    cursor.offset ≤ (s.content path).length ∧
      (s.content path).take cursor.offset = start ++ s.readFrom path ∧
      cursor.buffer = Lines.rest newline (s.readFrom path) := by
  rcases h.follows.seen cursor hc with ⟨file, hfile, hinode, hle, hbuffer⟩ | ⟨-, ⟨f, hmem, -⟩, -⟩
  · rw [Tail.content_of_lookup hfile]
    refine ⟨hle, ?_, hbuffer⟩
    have hunread : s.unread path = file.content.drop cursor.offset := by
      unfold Tail.unread
      rw [hfile, hc]
      exact if_pos hinode
    have hsplit := h.follows.split
    rw [h.written, Tail.content_of_lookup hfile, hunread] at hsplit
    exact List.append_cancel_right ((List.take_append_drop _ _).trans hsplit.symm)
  · rw [h.backups] at hmem
    exact absurd hmem List.not_mem_nil

/-- The reader has not seen the path yet. -/
structure Unseen (s : Tail) (path : Path) : Prop where
  cursor : s.poller.cursors.lookup path = none
  read : s.readFrom path = []
  events : s.eventsOf path = []
  backups : s.backups path = []

theorem unseen_start (files : FileSystem) (pattern : Path → Bool) (fromEnd : Bool) (path : Path) :
    Unseen (Tail.start files pattern fromEnd) path :=
  ⟨rfl, rfl, rfl, rfl⟩

/-- All that is there is still to be read. -/
theorem Unseen.reading {s : Tail} {path : Path} (h : Unseen s path) :
    Reading decode [] s path := by
  refine ⟨⟨?_, ?_, fun _ => h.read, fun cursor hc => ?_⟩, h.backups⟩
  · rw [h.read, h.events]
    exact .nil
  · have hunread : s.unread path = s.content path := by
      unfold Tail.unread Tail.content
      cases s.files.lookup path with
      | none => rfl
      | some file => simp only [h.cursor]
    unfold Tail.written
    rw [h.read, h.backups, hunread]
    rfl
  · rw [h.cursor] at hc
    cases hc

/-- **The reader emits each line of what it has read exactly once.** In every run without rotations
of a reader that starts at the top: the events of a path are those of the complete lines read from
it, in order, and the bytes before the cursor are these lines followed by the buffer. -/
theorem reads_exactly {files : FileSystem} {pattern : Path → Bool} {s : Tail}
    (h : Reach (Tail.step decode) NoRotation (.start files pattern false) s) (path : Path) :
    Emitted decode path.stem (Lines.complete newline (s.readFrom path)) (s.eventsOf path) ∧
      (s.poller.cursors.lookup path = none → s.readFrom path = []) ∧
      ∀ cursor, s.poller.cursors.lookup path = some cursor →
        cursor.offset ≤ (s.content path).length ∧
        (s.content path).take cursor.offset = s.readFrom path ∧
        Lines.join newline (Lines.complete newline (s.readFrom path)) ++ cursor.buffer =
          s.readFrom path := by
  have hinv : Reading decode [] s path ∧ s.poller.fromEnd = false := by
    refine h.invariant (P := fun s => Reading decode [] s path ∧ s.poller.fromEnd = false)
      ⟨(unseen_start files pattern false path).reading, rfl⟩ fun s₁ a s₂ h₁ hok hs => ?_
    refine ⟨h₁.1.step hok hs fun _ _ _ hend => ?_, (step_frame hs).2.1.trans h₁.2⟩
    rw [h₁.2] at hend
    cases hend
  refine ⟨hinv.1.follows.emitted, hinv.1.follows.unseen, fun cursor hc => ?_⟩
  obtain ⟨hle, htake, hbuffer⟩ := hinv.1.take hc
  rw [hbuffer]
  exact ⟨hle, htake, Lines.join_complete newline _⟩

/-- `logs/api/api.log.json` -/
def apiLog : Path := ⟨["api", "api.log.json"]⟩

/-- A decoder for runs in which no line is a record. -/
def noRecords (_ : ℚ) (_ : Bytes) : Option TelemetryEvent := none

/-- A file appears, and a line reaches it in three chunks around two polls. -/
def splitLine : List Action :=
  [.create apiLog 7, .append apiLog [0x61, 0xC3], .collect {}, .append apiLog [0xA9, 0x0A, 0x62],
    .collect { late := fun _ => [0x63] }, .append apiLog [0x0A], .collect {}]

def splitLineEnd : Tail :=
  (runActions (Tail.step noRecords) NoRotation (.start ∅ (fun _ => true) false) splitLine).get
    (by decide)

theorem reads_exactly_splitLine :
    (splitLineEnd.eventsOf apiLog).map (·.message) = [some "aé", some "bc"] ∧
      Emitted noRecords apiLog.stem
        (Lines.complete newline (splitLineEnd.readFrom apiLog)) (splitLineEnd.eventsOf apiLog) :=
  ⟨by decide, (reads_exactly (Reach.of_runActions (Option.some_get _).symm) apiLog).1⟩

/-! ## Caught up -/

/-- After a poll from `s` to `s'`, the events of the path are those of the lines written there
after `start`, each exactly once: all that had been written when the poll began, and no other. -/
def CaughtUp (decode : ℚ → Bytes → Option TelemetryEvent) (start : Bytes) (s s' : Tail)
    (path : Path) : Prop :=
  ∃ bytes, s.written path <+: start ++ bytes ∧ start ++ bytes <+: s'.written path ∧
    Emitted decode path.stem (Lines.complete newline bytes) (s'.eventsOf path)

theorem Follows.caughtUp {start : Bytes} {s s' : Tail} {path : Path} {call : Call}
    (h : Follows decode start s path) (hs : s.step decode (.collect call) = some s')
    (hfirst : s.FirstSightEmpty path) (hpattern : s.poller.pattern path = true) :
    CaughtUp decode start s s' path := by
  obtain rfl : s.collect decode call = s' := Option.some.inj hs
  obtain ⟨h', hall⟩ := h.collect call hfirst
  refine ⟨_, hall hpattern, ?_, h'.emitted⟩
  rw [← h'.split]
  exact List.prefix_append _ _

/-- A reader that has emitted nothing has not caught up with a line that is not blank. -/
theorem not_caughtUp {s s' : Tail} {path : Path} (line : Bytes)
    (hline : line ∈ Lines.complete newline (s.written path)) (hblank : strip line ≠ [])
    (hevents : s'.eventsOf path = []) : ¬CaughtUp decode [] s s' path := by
  rintro ⟨bytes, ⟨more, rfl⟩, -, h⟩
  rw [hevents] at h
  unfold Emitted at h
  rw [List.forall₂_nil_right_iff, Lines.complete_append, List.filter_append,
    List.append_eq_nil_iff] at h
  have hmem : line ∈ (Lines.complete newline (s.written path)).filter fun l => strip l ≠ [] :=
    List.mem_filter.mpr ⟨hline, by simpa using hblank⟩
  rw [h.1] at hmem
  exact absurd hmem List.not_mem_nil

/-! ## A reader that starts at the end -/

def Action.polls : Action → Bool
  | .collect _ => true
  | _ => false

/-- No rotation, and the file is empty when a poll first sees it. -/
def FirstSeenEmpty (path : Path) (s : Tail) (a : Action) : Prop :=
  NoRotation s a ∧ (a.polls = true → s.FirstSightEmpty path)

instance (s : Tail) (path : Path) : Decidable (s.FirstSightEmpty path) :=
  inferInstanceAs (Decidable (_ → _ → _))

instance (path : Path) (s : Tail) (a : Action) : Decidable (FirstSeenEmpty path s a) :=
  inferInstanceAs (Decidable (_ ∧ _))

/-- The first pass of a file reads nothing and skips what is there. -/
theorem Follows.skip {s : Tail} {path : Path} {stat : File} (call : Call)
    (h : Follows decode [] s path) (hnone : s.poller.cursors.lookup path = none)
    (hend : s.poller.fromEnd = true) (hfile : s.files.lookup path = some stat) :
    Follows decode (s.content path) (s.visit decode call path) path := by
  have hcursor : s.poller.cursorFor path stat =
      { inode := stat.inode, offset := stat.content.length } := by
    unfold Poller.cursorFor
    rw [hnone, hend]
    rfl
  have hall : s.written path = s.content path := by
    rw [← h.split, h.unseen hnone, Tail.content_of_lookup hfile]
    unfold Tail.unread
    rw [hfile, hnone]
    rfl
  have hvisit : s.poller.visit decode (call.clock path) path stat
      (stat.content ++ call.late path) = _ :=
    Poller.visit_of_le _ _ (by rw [hcursor])
  obtain ⟨hfile', hcursor', hread, hevents, hwritten⟩ := Tail.visit_at hfile hvisit rfl
  set u : Tail := s.visit decode call path
  rw [hcursor] at hcursor'
  rw [h.unseen hnone, List.append_nil] at hread
  rw [List.append_nil] at hevents
  have hunread : u.unread path = call.late path := by
    unfold Tail.unread
    rw [hfile', hcursor']
    simp
  refine ⟨?_, ?_, fun _ => hread, fun cursor hc => ?_⟩
  · rw [hread, hevents, ← h.unseen hnone]
    exact h.emitted
  · rw [hread, hunread, hwritten, hall, List.append_nil]
  · obtain rfl := Option.some.inj (hcursor'.symm.trans hc)
    refine .inl ⟨_, hfile', rfl, ?_, ?_⟩
    · simp
    · rw [hread]
      rfl

/-- A poll of a reader that starts at the end skips what stands in a file it has not seen, and
leaves the files that it does not come to. -/
theorem Follows.foldl_skip {s : Tail} {path : Path} (call : Call) (paths : List Path)
    (h : Follows decode [] s path) (hnone : s.poller.cursors.lookup path = none)
    (hend : s.poller.fromEnd = true)
    (hfile : path ∈ paths → ∃ stat, s.files.lookup path = some stat) :
    let s' := paths.foldl (Tail.visit decode call) s
    (path ∈ paths → Follows decode (s.content path) s' path ∧
      s'.poller.cursors.lookup path ≠ none) ∧
      (path ∉ paths → Follows decode [] s' path ∧ s'.poller.cursors.lookup path = none) := by
  induction paths generalizing s with
  | nil => exact ⟨fun hmem => absurd hmem List.not_mem_nil, fun _ => ⟨h, hnone⟩⟩
  | cons q paths ih =>
    rw [List.foldl_cons]
    by_cases hq : path = q
    · subst hq
      obtain ⟨stat, hstat⟩ := hfile List.mem_cons_self
      have hseen : (s.visit decode call path).poller.cursors.lookup path ≠ none :=
        Tail.cursor_visit_self hstat
      exact ⟨fun _ => ⟨((h.skip call hnone hend hstat).foldl call paths
          fun hnone' => absurd hnone' hseen).1, Tail.cursor_foldl hseen paths⟩,
        fun hmem => absurd List.mem_cons_self hmem⟩
    · have hsame := Tail.sameAt_visit decode call s hq
      obtain ⟨hin, hout⟩ := ih (h.frame hsame) (hsame.cursor.trans hnone)
        ((Tail.visit_poller q).2.trans hend) fun hmem => by
        rw [hsame.file]
        exact hfile (List.mem_cons_of_mem q hmem)
      rw [hsame.content] at hin
      exact ⟨fun hmem => hin ((List.mem_cons.mp hmem).resolve_left hq),
        fun hmem => hout fun h' => hmem (List.mem_cons_of_mem q h')⟩

/-- The first poll of a reader that starts at the end. -/
theorem reading_of_first {files : FileSystem} {pattern : Path → Bool} {path : Path} (call : Call)
    (hpattern : pattern path = true) :
    Reading decode ((Tail.start files pattern true).content path)
      ((Tail.start files pattern true).collect decode call) path := by
  set s := Tail.start files pattern true with hs
  have hstart : Follows decode [] s path := (unseen_start files pattern true path).reading.follows
  obtain ⟨hin, hout⟩ := hstart.foldl_skip call (s.poller.glob s.files) rfl rfl
    fun hmem => (Tail.mem_glob.mp hmem).2
  have hbackups : (s.collect decode call).backups path = [] :=
    congrFun (Tail.foldl_backups _) path
  by_cases hmem : path ∈ s.poller.glob s.files
  · exact ⟨(hin hmem).1, hbackups⟩
  · have hcontent : s.content path = [] := by
      unfold Tail.content
      cases hfile : s.files.lookup path with
      | none => rfl
      | some stat => exact absurd (Tail.mem_glob.mpr ⟨hpattern, stat, hfile⟩) hmem
    rw [hcontent]
    exact ⟨(hout hmem).1, hbackups⟩

/-- **Only history is skipped, as long as new files are seen empty.** A reader that starts at the
end has, after every poll but the first, emitted each line written behind what was there at its
start. The condition is that no later poll finds lines in a file that it has not seen before. -/
theorem caughtUp_of_firstSeenEmpty {files : FileSystem} {pattern : Path → Bool} {path : Path}
    {first : Call} {s s' : Tail} (call : Call) (hpattern : pattern path = true)
    (h : Reach (Tail.step decode) (FirstSeenEmpty path)
      ((Tail.start files pattern true).collect decode first) s)
    (hok : FirstSeenEmpty path s (.collect call))
    (hs : s.step decode (.collect call) = some s') :
    CaughtUp decode ((Tail.start files pattern true).content path) s s' path := by
  have hinv := h.invariant (P := fun s =>
      Reading decode ((Tail.start files pattern true).content path) s path ∧
        s.poller.pattern = pattern)
    ⟨reading_of_first first hpattern, (Tail.foldl_poller _).1⟩ fun s₁ a s₂ h₁ hok hs =>
      ⟨h₁.1.step hok.1 hs fun _ ha => hok.2 (ha ▸ rfl), (step_frame hs).1.trans h₁.2⟩
  exact hinv.1.follows.caughtUp hs (hok.2 rfl) (hinv.2 ▸ hpattern)

/-- The daemon polls an empty directory. -/
def daemonStarted : Tail := (Tail.start ∅ (fun _ => true) true).collect noRecords {}

/-- A poll sees the new file before its first line is written. -/
def polledFile : Tail :=
  (runActions (Tail.step noRecords) (FirstSeenEmpty apiLog) daemonStarted
    [.create apiLog 7, .collect {}, .append apiLog [0x61, 0x0A]]).get (by decide)

theorem caughtUp_polledFile :
    CaughtUp noRecords ((Tail.start ∅ (fun _ => true) true).content apiLog) polledFile
      (polledFile.collect noRecords {}) apiLog :=
  caughtUp_of_firstSeenEmpty {} rfl (Reach.of_runActions (Option.some_get _).symm)
    (by decide) rfl

/-- A service writes its first line, in a file it has just opened, before the next poll. -/
def unpolledFile : Tail :=
  (runActions (Tail.step noRecords) NoRotation daemonStarted
    [.create apiLog 7, .append apiLog [0x61, 0x0A]]).get (by decide)

theorem not_caughtUp_unpolledFile :
    Reach (Tail.step noRecords) NoRotation daemonStarted unpolledFile ∧
      ¬CaughtUp noRecords ((Tail.start ∅ (fun _ => true) true).content apiLog) unpolledFile
        (unpolledFile.collect noRecords {}) apiLog :=
  ⟨Reach.of_runActions (Option.some_get _).symm,
    not_caughtUp [0x61] (by decide) (by decide) (by decide)⟩

/-! ## Rotations -/

/-- What the producer of a path does: it appends whole lines. -/
def WholeLines (path : Path) : Action → Prop
  | .append q chunk => q = path → Lines.rest newline chunk = []
  | .collect call => Lines.rest newline (call.late path) = []
  | _ => True

/-- A rotation finds that the reader has come to the end of the file. A poll of a reader that starts
at the end does not find lines in a file that it has not seen before. -/
def KeepsUp (path : Path) (s : Tail) : Action → Prop
  | .rotate q => q = path → s.unread path = []
  | .collect _ => s.FirstSightEmpty path
  | _ => True

instance (path : Path) : ∀ a, Decidable (WholeLines path a)
  | .create .. => isTrue trivial
  | .append .. => inferInstanceAs (Decidable (_ → _))
  | .rotate .. => isTrue trivial
  | .collect .. => inferInstanceAs (Decidable (_ = _))

instance (path : Path) (s : Tail) : ∀ a, Decidable (KeepsUp path s a)
  | .create .. => isTrue trivial
  | .append .. => isTrue trivial
  | .rotate .. => inferInstanceAs (Decidable (_ → _))
  | .collect .. => inferInstanceAs (Decidable (s.FirstSightEmpty path))

theorem Tail.written_append {s : Tail} {path : Path} (q : Path) (chunk : Bytes)
    (hwhole : Lines.rest newline (s.written path) = [])
    (hchunk : q = path → Lines.rest newline chunk = []) :
    Lines.rest newline ((s.append q chunk).written path) = [] := by
  by_cases hq : path = q
  · subst hq
    cases hfile : s.files.lookup path with
    | none =>
      unfold Tail.append
      rw [hfile]
      exact hwhole
    | some file =>
      rw [Tail.append_written hfile, Lines.rest_append_of_whole newline hwhole]
      exact hchunk rfl
  · rw [(Tail.sameAt_append hq chunk).written]
    exact hwhole

theorem Tail.written_visit {s : Tail} {path q : Path} {call : Call}
    (hwhole : Lines.rest newline (s.written path) = [])
    (hchunk : Lines.rest newline (call.late path) = []) :
    Lines.rest newline ((s.visit decode call q).written path) = [] := by
  cases hfile : s.files.lookup q with
  | none =>
    rw [Tail.visit_of_none hfile]
    exact hwhole
  | some stat =>
    have h := Tail.written_append q (call.late q) hwhole fun hq => hq ▸ hchunk
    rw [Tail.visit_of_some hfile]
    exact h

/-- What holds of the path of a producer with whole lines. -/
structure Producing (decode : ℚ → Bytes → Option TelemetryEvent) (s : Tail) (path : Path) :
    Prop where
  follows : Follows decode [] s path
  whole : Lines.rest newline (s.written path) = []

theorem Producing.step {s s' : Tail} {path : Path} {a : Action}
    (h : Producing decode s path) (hlines : WholeLines path a) (hkeeps : KeepsUp path s a)
    (hs : s.step decode a = some s') : Producing decode s' path := by
  refine ⟨h.follows.step hs (fun ha => ?_) fun call ha => ?_, ?_⟩
  · subst ha
    have hunread := hkeeps rfl
    have hsplit := h.follows.split
    rw [hunread, List.append_nil, List.nil_append] at hsplit
    exact ⟨hunread, hsplit ▸ h.whole⟩
  · subst ha
    exact hkeeps
  · cases a with
    | create q inode =>
      obtain ⟨habsent, hfresh, rfl⟩ := Tail.step_create hs
      rw [Tail.create_written habsent]
      exact h.whole
    | append q chunk =>
      obtain rfl : s.append q chunk = s' := Option.some.inj hs
      exact Tail.written_append q chunk h.whole hlines
    | rotate q =>
      obtain ⟨file, hfile, rfl⟩ := Tail.step_rotate hs
      rw [Tail.rotate_written hfile]
      exact h.whole
    | collect call =>
      obtain rfl : s.collect decode call = s' := Option.some.inj hs
      exact List.foldlRecOn (motive := fun u => Lines.rest newline (Tail.written u path) = []) _ _
        h.whole fun u hu q _ => Tail.written_visit hu hlines

/-- **Nothing is lost in a rotation that the reader has caught up with.** In every run in which each
rotation of the path finds its file read to the end, every poll leaves each line written so far
emitted exactly once, whatever was renamed in between. -/
theorem caughtUp_of_keepsUp {files : FileSystem} {pattern : Path → Bool} {fromEnd : Bool}
    {path : Path} {s s' : Tail} (call : Call) (hpattern : pattern path = true)
    (hempty : (Tail.start files pattern fromEnd).content path = [])
    (h : Reach (Tail.step decode) (fun s a => WholeLines path a ∧ KeepsUp path s a)
      (.start files pattern fromEnd) s)
    (hkeeps : KeepsUp path s (.collect call))
    (hs : s.step decode (.collect call) = some s') : CaughtUp decode [] s s' path := by
  have hstart : Reading decode [] (.start files pattern fromEnd) path :=
    (unseen_start files pattern fromEnd path).reading
  have hinv := h.invariant
    (P := fun s => Producing decode s path ∧ s.poller.pattern = pattern)
    ⟨⟨hstart.follows, by rw [hstart.written, hempty]; rfl⟩, rfl⟩
    fun s₁ a s₂ h₁ hok hs => ⟨h₁.1.step hok.1 hok.2 hs, (step_frame hs).1.trans h₁.2⟩
  exact hinv.1.follows.caughtUp hs hkeeps (hinv.2 ▸ hpattern)

/-- One line, a poll, a rotation and another line. -/
def polledRotation : Tail :=
  (runActions (Tail.step noRecords) (fun s a => WholeLines apiLog a ∧ KeepsUp apiLog s a)
    (.start ∅ (fun _ => true) false)
    [.create apiLog 7, .append apiLog [0x61, 0x0A], .collect {}, .rotate apiLog, .collect {},
      .create apiLog 8, .append apiLog [0x62, 0x0A]]).get (by decide)

theorem caughtUp_polledRotation :
    CaughtUp noRecords [] polledRotation (polledRotation.collect noRecords {}) apiLog :=
  caughtUp_of_keepsUp {} rfl rfl (Reach.of_runActions (Option.some_get _).symm) (by decide) rfl

/-- The last line before the rotation comes after the last poll of the old file. -/
def unpolledRotation : Tail :=
  (runActions (Tail.step noRecords) (fun _ a => WholeLines apiLog a) (.start ∅ (fun _ => true) false)
    [.create apiLog 7, .collect {}, .append apiLog [0x61, 0x0A], .rotate apiLog,
      .create apiLog 8]).get (by decide)

theorem not_caughtUp_unpolledRotation :
    Reach (Tail.step noRecords) (fun _ a => WholeLines apiLog a) (.start ∅ (fun _ => true) false)
        unpolledRotation ∧
      ¬CaughtUp noRecords [] unpolledRotation (unpolledRotation.collect noRecords {}) apiLog :=
  ⟨Reach.of_runActions (Option.some_get _).symm,
    not_caughtUp [0x61] (by decide) (by decide) (by decide)⟩

end ApiTemplate.Telemetry
