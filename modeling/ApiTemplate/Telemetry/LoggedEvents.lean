import ApiTemplate.Stream.JsonLines
import ApiTemplate.Telemetry.EventLog
import ApiTemplate.Telemetry.Runner

/-!
# From the log of a service to the writers

`TelemetryLogHandler` writes the text of each event and a newline. The text holds no newline of its
own, so the reader finds the events of a file one by one, from the first or from where it stood when
the reader came to it, and what the writers are handed are events that a service has logged.
-/

namespace ApiTemplate.Telemetry

open TxStore
open JsonText (Printable)

/-! ## The line of an event -/

namespace Encoder

/-- The texts of floats and of base64 hold no control characters. -/
structure Prints (enc : Encoder) : Prop where
  float : ∀ x, Printable (enc.float x)
  bytes : ∀ b, Printable (enc.bytes b)

theorem printable_nat (n : ℕ) : Printable (Nat.toDigits 10 n) := by
  intro c hc
  have hdigit : 48 ≤ c.val ∧ c.val ≤ 57 := by
    simpa [Char.isDigit] using Nat.isDigit_of_mem_toDigits (by decide) (by decide) hc
  have hle : 48 ≤ c.toNat := UInt32.le_iff_toNat_le.mp hdigit.1
  omega

theorem printable_int (n : ℤ) : Printable (toString n).toList := by
  cases n with
  | ofNat n =>
    show Printable (Nat.repr n).toList
    rw [Nat.toList_repr]
    exact printable_nat n
  | negSucc n =>
    show Printable ("-" ++ Nat.repr (n + 1)).toList
    rw [String.toList_append, Nat.toList_repr]
    exact .append (JsonText.printable_of_all (by decide)) (printable_nat _)

variable {enc : Encoder}

theorem Prints.scalar (h : enc.Prints) (s : Scalar) : Printable (enc.scalar s) := by
  cases s with
  | none => exact JsonText.printable_of_all rfl
  | bool b => cases b <;> exact JsonText.printable_of_all rfl
  | int n => exact printable_int n
  | float x => exact h.float x
  | uuid text => exact JsonText.printable_quote _
  | str s => exact JsonText.printable_quote _
  | bytes b => exact JsonText.printable_quote _

theorem Prints.key (h : enc.Prints) (k : Scalar) : Printable (enc.key k) := by
  cases k with
  | int n => exact JsonText.printable_quote _
  | float x => exact JsonText.printable_quote _
  | none => exact h.scalar .none
  | bool b => exact h.scalar (.bool b)
  | uuid text => exact h.scalar (.uuid text)
  | str s => exact h.scalar (.str s)
  | bytes b => exact h.scalar (.bytes b)

mutual

theorem Prints.value (h : enc.Prints) : ∀ v : Value, Printable (enc.value v)
  | .scalar s => h.scalar s
  | .list items => JsonText.printable_array (Prints.values h items)
  | .tuple items => JsonText.printable_array (Prints.values h items)
  | .dict entries => JsonText.printable_object (Prints.members h entries)

theorem Prints.values (h : enc.Prints) :
    ∀ items : List Value, ∀ text ∈ enc.values items, Printable text
  | [] => fun _ hmem => absurd hmem List.not_mem_nil
  | item :: items => List.forall_mem_cons.mpr ⟨Prints.value h item, Prints.values h items⟩

theorem Prints.members (h : enc.Prints) :
    ∀ entries : List (Scalar × Value), ∀ text ∈ enc.members entries, Printable text
  | [] => fun _ hmem => absurd hmem List.not_mem_nil
  | (k, v) :: entries =>
    List.forall_mem_cons.mpr
      ⟨JsonText.printable_member (h.key k) (Prints.value h v), Prints.members h entries⟩

end

/-- The present fields of a record. -/
theorem printable_present {fields : List (String × Option (List Char))}
    (h : ∀ field ∈ fields, ∀ text, field.2 = some text → Printable text) :
    ∀ text ∈ present fields, Printable text := by
  intro text hmem
  obtain ⟨⟨name, value⟩, hfield, hvalue⟩ := List.mem_filterMap.mp hmem
  obtain ⟨inner, hinner, rfl⟩ := Option.map_eq_some_iff.mp hvalue
  exact JsonText.printable_member (JsonText.printable_quote _) (h _ hfield inner hinner)

theorem printable_map {α : Type} {f : α → List Char} (hf : ∀ a, Printable (f a)) (o : Option α) :
    ∀ text, o.map f = some text → Printable text := by
  intro text h
  obtain ⟨a, -, rfl⟩ := Option.map_eq_some_iff.mp h
  exact hf a

theorem printable_ite {p : Prop} [Decidable p] {t : List Char} (ht : Printable t) :
    ∀ text, (if p then none else some t) = some text → Printable text := by
  intro text h
  split at h
  · cases h
  · exact Option.some.inj h ▸ ht

/-- **The text of an event holds no control character.** -/
theorem Prints.event (h : enc.Prints) (e : TelemetryEvent) : Printable (enc.event e) := by
  have htext : ∀ s, Printable (text s) := fun s => JsonText.printable_quote _
  refine JsonText.printable_object (printable_present ?_)
  simp only [headFields, tailFields, List.cons_append, List.nil_append, List.forall_mem_cons,
    List.not_mem_nil, false_implies, implies_true, and_true]
  refine ⟨?_, printable_ite (htext _), printable_ite (htext _), ?_, printable_map htext _,
    printable_map h.float _, printable_map htext _, printable_map htext _, printable_map htext _,
    printable_map htext _, printable_map h.value _, printable_map h.value _,
    printable_map printable_int _, printable_map htext _, printable_map htext _,
    printable_map htext _, printable_map htext _⟩
  · rintro _ ⟨⟩
    exact htext _
  · rintro _ ⟨⟩
    exact h.float _

/-- What `format` returns for an event, as the handler writes it. -/
def line (enc : Encoder) (e : TelemetryEvent) : Bytes := JsonText.octets (enc.event e)

theorem Prints.newline_not_mem (h : enc.Prints) (e : TelemetryEvent) : newline ∉ enc.line e :=
  fun hmem => absurd ((h.event e).octets hmem) (by decide)

theorem strip_line (enc : Encoder) (e : TelemetryEvent) :
    strip (enc.line e) = enc.line e ∧ enc.line e ≠ [] := by
  unfold line event
  rw [JsonText.octets_object]
  refine ⟨?_, List.cons_ne_nil _ _⟩
  have hopen : isBlankByte 123 = false := by decide
  have hclose : isBlankByte 125 = false := by decide
  unfold strip
  rw [List.dropWhile_cons_of_neg (by simp [hopen]), ← List.cons_append, List.reverse_append,
    List.reverse_singleton, List.singleton_append, List.dropWhile_cons_of_neg (by simp [hclose])]
  simp

end Encoder

/-! ## The log of a service -/

/-- What the handler has written when it has logged some events. -/
def journal (enc : Encoder) (events : List TelemetryEvent) : Bytes :=
  Lines.join newline (events.map enc.line)

/-- The decoder reads back what the encoder has written for the event. -/
def Decodes (decode : ℚ → Bytes → Option TelemetryEvent) (enc : Encoder) (e : TelemetryEvent) :
    Prop :=
  ∀ now, decode now (enc.line e) = some e

section

variable {decode : ℚ → Bytes → Option TelemetryEvent} {enc : Encoder} {service : String}

@[simp] theorem journal_append (enc : Encoder) (events more : List TelemetryEvent) :
    journal enc (events ++ more) = journal enc events ++ journal enc more := by
  unfold journal Lines.join
  rw [List.map_append, List.flatMap_append]

theorem eq_nil_of_journal {events : List TelemetryEvent} (h : journal enc events = []) :
    events = [] := by
  cases events with
  | nil => rfl
  | cons e events => simp [journal, Lines.join] at h

theorem parseLine_line {e : TelemetryEvent} (h : Decodes decode enc e) (now : ℚ) :
    parseLine decode now (enc.line e) service = some e := by
  obtain ⟨hstrip, hne⟩ := enc.strip_line e
  unfold parseLine
  simp only [hstrip, hne, if_false, h now]

/-- The events emitted for the lines of some events are these. -/
theorem emitted_lines {logged events : List TelemetryEvent}
    (hdecode : ∀ e ∈ logged, Decodes decode enc e)
    (h : Emitted decode service (logged.map enc.line) events) : events = logged := by
  have hkept : (logged.map enc.line).filter (fun l => strip l ≠ []) = logged.map enc.line := by
    refine List.filter_eq_self.mpr fun l hl => ?_
    obtain ⟨e, -, rfl⟩ := List.mem_map.mp hl
    obtain ⟨hstrip, hne⟩ := enc.strip_line e
    rw [decide_eq_true_eq, hstrip]
    exact hne
  unfold Emitted at h
  rw [hkept] at h
  clear hkept
  induction logged generalizing events with
  | nil => exact List.forall₂_nil_left_iff.mp h
  | cons e logged ih =>
    rw [List.map_cons, List.forall₂_cons_left_iff] at h
    obtain ⟨e', events, ⟨now, hparsed⟩, htail, rfl⟩ := h
    rw [parseLine_line (hdecode e List.mem_cons_self)] at hparsed
    rw [← Option.some.inj hparsed,
      ih (fun x hx => hdecode x (List.mem_cons_of_mem e hx)) htail]

theorem Encoder.Prints.newline_not_mem_lines (henc : enc.Prints) (logged : List TelemetryEvent) :
    ∀ l ∈ logged.map enc.line, newline ∉ l := by
  intro l hl
  obtain ⟨e, -, rfl⟩ := List.mem_map.mp hl
  exact henc.newline_not_mem e

/-- **However much of its log the reader has read, the events of a service are the first of those it
has logged.** -/
theorem emitted_prefix (henc : enc.Prints) {logged events : List TelemetryEvent} {bytes : Bytes}
    (hdecode : ∀ e ∈ logged, Decodes decode enc e) (hbytes : bytes <+: journal enc logged)
    (h : Emitted decode service (Lines.complete newline bytes) events) : events <+: logged := by
  have hprefix := Lines.complete_of_prefix (henc.newline_not_mem_lines logged) hbytes
  rw [List.prefix_iff_eq_take, ← List.map_take] at hprefix
  rw [ hprefix] at h
  rw [emitted_lines (fun e he => hdecode e (List.mem_of_mem_take he)) h]
  exact List.take_prefix _ _

/-- Once it has read all of it, they are all of them. -/
theorem emitted_journal (henc : enc.Prints) {logged events : List TelemetryEvent}
    (hdecode : ∀ e ∈ logged, Decodes decode enc e)
    (h : Emitted decode service (Lines.complete newline (journal enc logged)) events) :
    events = logged := by
  have hlines := Lines.complete_join (henc.newline_not_mem_lines logged) []
  rw [List.append_nil, Lines.complete_nil, List.append_nil] at hlines
  unfold journal at h
  rw [hlines] at h
  exact emitted_lines hdecode h

end

/-! ## From the end of a file on -/

/-- The reader has not come to the file yet, or it has skipped `start` and follows it. -/
def FollowsFrom (decode : ℚ → Bytes → Option TelemetryEvent) (start : Bytes) (s : Tail)
    (path : Path) : Prop :=
  s.poller.cursors.lookup path = none ∧ Follows decode [] s path ∨
    (s.poller.fromEnd = true → s.poller.cursors.lookup path ≠ none) ∧ Follows decode start s path

section

variable {decode : ℚ → Bytes → Option TelemetryEvent} {start : Bytes} {s s' : Tail} {path : Path}

theorem FollowsFrom.collect (h : FollowsFrom decode start s path) (call : Call)
    (htop : s.poller.fromEnd = false → start = [])
    (hfirst : s.poller.fromEnd = true → path ∈ s.poller.glob s.files →
      s.poller.cursors.lookup path = none → s.content path = start) :
    FollowsFrom decode start (s.collect decode call) path := by
  have hend' : (s.collect decode call).poller.fromEnd = s.poller.fromEnd := (Tail.foldl_poller _).2
  rcases h with ⟨hnone, h⟩ | ⟨hseen, h⟩
  · by_cases hend : s.poller.fromEnd = true
    · obtain ⟨hin, hout⟩ := h.foldl_skip call (s.poller.glob s.files) hnone hend
        fun hmem => (Tail.mem_glob.mp hmem).2
      by_cases hmem : path ∈ s.poller.glob s.files
      · obtain ⟨h', hseen'⟩ := hin hmem
        rw [hfirst hend hmem hnone] at h'
        exact .inr ⟨fun _ => hseen', h'⟩
      · exact .inl (hout hmem).symm
    · obtain rfl := htop (by simpa using hend)
      refine .inr ⟨fun hend'' => absurd (hend' ▸ hend'') hend, ?_⟩
      exact (h.collect call fun _ hend'' => absurd hend'' hend).1
  · refine .inr ⟨fun hend => Tail.cursor_foldl (hseen (hend' ▸ hend)) _, ?_⟩
    exact (h.collect call fun hnone hend => absurd hnone (hseen hend)).1

/-- **One action.** What the reader skips is what stands in the file when it first comes to it. -/
theorem FollowsFrom.step (h : FollowsFrom decode start s path) {a : Action}
    (hs : s.step decode a = some s')
    (hrotate : a = .rotate path → s.unread path = [] ∧ Lines.rest newline (s.readFrom path) = [])
    (htop : s.poller.fromEnd = false → start = [])
    (hfirst : ∀ call, a = .collect call → s.poller.fromEnd = true →
      path ∈ s.poller.glob s.files → s.poller.cursors.lookup path = none →
      s.content path = start) :
    FollowsFrom decode start s' path := by
  by_cases hpolls : a.polls = false
  · have hcollect : ∀ call, a = .collect call → s.FirstSightEmpty path := by
      rintro call rfl
      cases hpolls
    obtain ⟨-, hpoller⟩ := Tail.step_of_not_polls hpolls hs
    unfold FollowsFrom
    rw [hpoller]
    exact h.imp (And.imp_right fun h => h.step hs hrotate hcollect)
      (And.imp_right fun h => h.step hs hrotate hcollect)
  · cases a with
    | create q inode => exact absurd rfl hpolls
    | append q chunk => exact absurd rfl hpolls
    | rotate q => exact absurd rfl hpolls
    | collect call =>
      obtain rfl : s.collect decode call = s' := Option.some.inj hs
      exact h.collect call htop (hfirst call rfl)

/-- The events returned for a file are the first of those logged behind what was skipped, and all
of them once it has been read to its end. -/
theorem FollowsFrom.emitted {enc : Encoder} (henc : enc.Prints) {before logged : List TelemetryEvent}
    (hdecode : ∀ e ∈ logged, Decodes decode enc e)
    (h : FollowsFrom decode (journal enc before) s path)
    (hlog : s.written path <+: journal enc (before ++ logged)) :
    s.eventsOf path <+: logged ∧
      (s.unread path = [] → s.written path = journal enc (before ++ logged) →
        s.eventsOf path = logged) := by
  rcases h with ⟨hnone, h⟩ | ⟨-, h⟩
  · have hread := h.unseen hnone
    have hemitted := h.emitted
    have hsplit := h.split
    rw [hread] at hemitted hsplit
    have hevents : s.eventsOf path = [] := List.forall₂_nil_left_iff.mp hemitted
    rw [hevents]
    refine ⟨List.nil_prefix, fun hunread hall => ?_⟩
    rw [hunread, hall, journal_append] at hsplit
    exact (eq_nil_of_journal (List.append_eq_nil_iff.mp hsplit.symm).2).symm
  · have hsplit := h.split
    rw [← hsplit, journal_append, List.append_assoc, List.prefix_append_right_inj] at hlog
    refine ⟨?_, fun hunread hall => ?_⟩
    · exact emitted_prefix henc hdecode ((List.prefix_append _ _).trans hlog) h.emitted
    · rw [hunread, hall, journal_append, List.append_nil, List.append_cancel_left_eq] at hsplit
      have hemitted := h.emitted
      rw [hsplit] at hemitted
      exact emitted_journal henc hdecode hemitted

end

/-! ## Runs of the daemon -/

/-- How many of the logged events the reader skips. -/
def skipped (fromEnd : Bool) (skip : Path → ℕ) (path : Path) : ℕ := if fromEnd then skip path else 0

namespace Daemon

variable {decode : ℚ → Bytes → Option TelemetryEvent} {d d' : Daemon}

/-- As long as no read fails, a step is one of a producer or a pass, or leaves the files and the
cursors. -/
theorem step_tail_cases {a : Action} (hs : d.step decode a = some d') (hf : d'.failed = []) :
    d.failed = [] ∧ (d'.tail = d.tail ∨ ∃ b, d.tail.step decode b = some d'.tail ∧
      (a = .produce b ∨ ∃ call fails, b = .collect call ∧ a = .collect call fails)) := by
  obtain ⟨b, tail, ha, -, htail, rfl⟩ | ⟨event, queue, -, -, -, -, -, rfl⟩ | ⟨-, -, -, rfl⟩ |
    ⟨call, fails, ha, -, rfl⟩ | ⟨events, -, -, -, rfl⟩ | ⟨-, -, -, rfl⟩ | ⟨-, rfl⟩ | ⟨-, -, rfl⟩ |
    ⟨-, -, rfl⟩ := step_cases hs
  case inl => exact ⟨hf, .inr ⟨b, htail, .inl ha⟩⟩
  case inr.inr.inr.inl =>
    rcases collect_cases decode d call fails with ⟨batches, -, heq⟩ | ⟨tail, read, f, heq⟩
    · rw [heq] at hf ⊢
      exact ⟨hf, .inr ⟨.collect call, rfl, .inr ⟨call, fails, rfl, ha⟩⟩⟩
    · rw [heq] at hf
      simp at hf
  all_goals exact ⟨hf, .inl rfl⟩

/-- A rotation finds the file read to its end, where no line is open. A reader that starts at the
end first comes to a file when the first `skip` of the logged events stand in it. -/
def Settled (enc : Encoder) (logged : Path → List TelemetryEvent) (skip : Path → ℕ) (d : Daemon) :
    Action → Prop
  | .produce (.rotate path) =>
    d.tail.unread path = [] ∧ Lines.rest newline (d.tail.readFrom path) = []
  | .collect .. =>
    d.tail.poller.fromEnd = true → ∀ path ∈ d.tail.poller.glob d.tail.files,
      d.tail.poller.cursors.lookup path = none →
        d.tail.content path = journal enc ((logged path).take (skip path))
  | _ => True

/-- As long as nothing has failed, the reader follows every file from behind what it skips. -/
def FollowsAll (decode : ℚ → Bytes → Option TelemetryEvent) (enc : Encoder)
    (logged : Path → List TelemetryEvent) (skip : Path → ℕ) (fromEnd : Bool) (d : Daemon) : Prop :=
  d.failed = [] → d.tail.poller.fromEnd = fromEnd ∧ ∀ path,
    FollowsFrom decode (journal enc ((logged path).take (skipped fromEnd skip path))) d.tail path

section

variable {enc : Encoder} {logged : Path → List TelemetryEvent} {skip : Path → ℕ} {fromEnd : Bool}

theorem FollowsAll.step (h : FollowsAll decode enc logged skip fromEnd d) {a : Action}
    (hok : d.Settled enc logged skip a) (hs : d.step decode a = some d') :
    FollowsAll decode enc logged skip fromEnd d' := by
  intro hf
  obtain ⟨hfailed, hsame | ⟨b, hb, hkind⟩⟩ := step_tail_cases hs hf
  · rw [hsame]
    exact h hfailed
  · obtain ⟨hend, hall⟩ := h hfailed
    refine ⟨(step_frame hb).2.1.trans hend, fun path => (hall path).step hb ?_ ?_ ?_⟩
    · rintro rfl
      rcases hkind with rfl | ⟨call, fails, hcall, -⟩
      · exact hok
      · cases hcall
    · intro htop
      rw [hend] at htop
      subst htop
      rfl
    · rintro call rfl hfrom hmem hnone
      rcases hkind with rfl | ⟨call, fails, -, rfl⟩
      · simp [Daemon.step, Telemetry.Action.polls] at hs
      · rw [hend] at hfrom
        subst hfrom
        exact hok hend path hmem hnone

end

end Daemon

namespace Runner

variable {Env : Type} {decode : ℚ → Bytes → Option TelemetryEvent}
  {composer : TelemetryComposer Env} {cfg : ℕ → WriterConfig} {s s' : Runner Env}

/-- The reader is settled in its steps. -/
def Settled (enc : Encoder) (logged : Path → List TelemetryEvent) (skip : Path → ℕ)
    (s : Runner Env) (a : Action Env) : Prop :=
  ∀ b ∈ a.reads, s.daemon.Settled enc logged skip b

section

variable {enc : Encoder} {logged : Path → List TelemetryEvent} {skip : Path → ℕ} {fromEnd : Bool}

theorem followsAll_step (h : s.daemon.FollowsAll decode enc logged skip fromEnd) {a : Action Env}
    (hok : s.Settled enc logged skip a) (hs : s.step decode composer cfg a = some s') :
    s'.daemon.FollowsAll decode enc logged skip fromEnd := by
  obtain ⟨b, daemon, ha, hd, -, rfl⟩ | ⟨env, event, queue, -, -, -, -, rfl⟩ |
    ⟨i, b, w, -, -, -, -, rfl⟩ | ⟨-, -, rfl⟩ | ⟨daemon, -, -, hd, rfl⟩ |
    ⟨k, b, w, -, -, -, -, -, rfl⟩ := step_cases hs
  · exact h.step (hok b ha) hd
  · obtain ⟨-, -, -, hdaemon⟩ := s.dispatch_frame composer cfg env event
      { s.daemon with queue, dispatched := s.daemon.dispatched ++ [event] }
    rcases hdaemon with hd | hd
    · rw [hd]
      exact h
    · rw [hd]
      exact h
  · exact h
  · exact h
  · exact h.step (a := .cancel) trivial hd
  · exact h

theorem followsAll_of_reach {files : FileSystem} {pattern : Path → Bool}
    (h : Reach (Runner.step decode composer cfg) (Settled enc logged skip)
      (start files pattern fromEnd) s) :
    s.daemon.FollowsAll decode enc logged skip fromEnd := by
  refine h.invariant (P := fun s => s.daemon.FollowsAll decode enc logged skip fromEnd)
    (fun _ => ⟨rfl, fun path => .inl ⟨rfl, ?_⟩⟩) fun _ _ _ h₁ hok hs => followsAll_step h₁ hok hs
  exact (unseen_start files pattern fromEnd path).reading.follows

end

/-- **What the writers are handed are the events the services have logged.** The decoder reads back
what the formatter has written. In a run in which every rotation finds its file read to the end,
and until a read fails: the events returned for a file are the first of those its service has
logged, all of them once the file has been read to its end, where a reader that starts at the end
leaves out those that stand in the file when it first comes to it; each is dispatched, queued or
waits for the consumer, in the order it was returned; and every event handed to a writer was logged
by some service and let through by the route. -/
theorem handed_were_logged {enc : Encoder} (henc : enc.Prints) (logged : Path → List TelemetryEvent)
    (hdecode : ∀ path, ∀ e ∈ logged path, Decodes decode enc e) (skip : Path → ℕ)
    {files : FileSystem} {pattern : Path → Bool} {fromEnd : Bool}
    (h : Reach (Runner.step decode composer cfg) (Settled enc logged skip)
      (start files pattern fromEnd) s)
    (hf : s.daemon.failed = [])
    (hlog : ∀ path, s.daemon.tail.written path <+: journal enc (logged path)) :
    (∀ path, s.daemon.tail.eventsOf path <+: (logged path).drop (skipped fromEnd skip path) ∧
      (s.daemon.tail.unread path = [] → s.daemon.tail.written path = journal enc (logged path) →
        s.daemon.tail.eventsOf path = (logged path).drop (skipped fromEnd skip path))) ∧
      s.daemon.dispatched ++ s.daemon.queue ++ s.daemon.polling.events =
        s.daemon.tail.log.flatMap Batch.events ∧
      ∀ i : Fin composer.routes.length, ∀ e ∈ (s.writers i).handed.flatten,
        (∃ path, e ∈ logged path) ∧ ∃ env, composer.admits env e = true ∧
          returnsTrue ((composer.routes.get i).destination env e) = true := by
  have hbooks := books_of_reach h
  obtain ⟨-, hall⟩ := followsAll_of_reach h hf
  have hevents : ∀ path,
      s.daemon.tail.eventsOf path <+: (logged path).drop (skipped fromEnd skip path) ∧
        (s.daemon.tail.unread path = [] → s.daemon.tail.written path = journal enc (logged path) →
          s.daemon.tail.eventsOf path = (logged path).drop (skipped fromEnd skip path)) := by
    intro path
    have hrest : ∀ e ∈ (logged path).drop (skipped fromEnd skip path), Decodes decode enc e :=
      fun e he => hdecode path e (List.mem_of_mem_drop he)
    have hpath := (hall path).emitted henc hrest
    rw [List.take_append_drop] at hpath
    exact hpath (hlog path)
  have hdelivered : s.daemon.dispatched ++ s.daemon.queue ++ s.daemon.polling.events =
      s.daemon.tail.log.flatMap Batch.events := by
    rcases Daemon.contained_or_broken hbooks.daemon with ⟨-, hc⟩ | ⟨hne, -⟩
    · rw [hc.delivered, hc.returned]
    · exact absurd hf hne
  refine ⟨hevents, hdelivered, fun i e he => ?_⟩
  obtain ⟨call, hcall, rfl⟩ := List.mem_map.mp (hbooks.mem_passed i he)
  obtain ⟨hmem, hpass⟩ := List.mem_filter.mp hcall
  have hdispatched : call.2 ∈ s.daemon.dispatched := hbooks.calls ▸ List.mem_map_of_mem hmem
  have hreturned : call.2 ∈ s.daemon.tail.log.flatMap Batch.events := by
    rw [← hdelivered, List.append_assoc]
    exact List.mem_append_left _ hdispatched
  obtain ⟨batch, hbatch, hevent⟩ := List.mem_flatMap.mp hreturned
  refine ⟨⟨batch.path, List.mem_of_mem_drop ((hevents batch.path).1.subset ?_)⟩, call.1, ?_⟩
  · exact List.mem_flatMap.mpr ⟨batch, List.mem_filter.mpr ⟨hbatch, by simp⟩, hevent⟩
  · simpa using hpass

/-- A worker reports that it has started. -/
def started : TelemetryEvent := { service := "worker", kind := KIND_LOG, epoch := 5 }

/-- A decoder that knows one line. -/
def decodeStarted (_ : ℚ) (text : Bytes) : Option TelemetryEvent :=
  if text = wholeSeconds.line started then some started else none

/-- The worker has logged the event before, and the reader skips it. Then the line reaches the file
in two chunks around a poll, and is handed to a writer. -/
def startedRun : List (Action Unit) :=
  [.produce (.create Daemon.workerLog 7),
    .produce (.append Daemon.workerLog (journal wholeSeconds [started])),
    .poll, .collect {} (fun _ => false), .deliver,
    .produce (.append Daemon.workerLog ((journal wholeSeconds [started]).take 9)),
    .poll, .collect {} (fun _ => false), .deliver,
    .produce (.append Daemon.workerLog ((journal wholeSeconds [started]).drop 9)),
    .poll, .collect {} (fun _ => false), .deliver, .next (), .consume 0 .get, .consume 0 .top,
    .consume 0 .call]

/-- What the worker has logged, and the API has logged nothing. -/
def startedLog (path : Path) : List TelemetryEvent :=
  if path = Daemon.workerLog then [started, started] else []

instance (enc : Encoder) (logged : Path → List TelemetryEvent) (skip : Path → ℕ) (d : Daemon) :
    ∀ a, Decidable (d.Settled enc logged skip a)
  | .produce (.rotate _) => inferInstanceAs (Decidable (_ ∧ _))
  | .produce (.create ..) => isTrue trivial
  | .produce (.append ..) => isTrue trivial
  | .produce (.collect _) => isTrue trivial
  | .next => isTrue trivial
  | .poll => isTrue trivial
  | .collect .. => inferInstanceAs (Decidable (_ → ∀ path ∈ _, _ → _ = journal enc _))
  | .deliver => isTrue trivial
  | .aclose => isTrue trivial
  | .stop => isTrue trivial
  | .cancel => isTrue trivial

instance (enc : Encoder) (logged : Path → List TelemetryEvent) (skip : Path → ℕ) (s : Runner Env)
    (a : Action Env) : Decidable (s.Settled enc logged skip a) :=
  inferInstanceAs (Decidable (∀ b ∈ a.reads, s.daemon.Settled enc logged skip b))

def startedEnd : Option (Runner Unit) :=
  runActions (step decodeStarted twoRoutes fun _ => {})
    (Settled wholeSeconds startedLog fun _ => 1) (start ∅ (fun _ => true) true) startedRun

theorem isSome_startedEnd : startedEnd.isSome := by decide +kernel

theorem written_startedEnd (path : Path) :
    (startedEnd.get isSome_startedEnd).daemon.tail.written path =
      journal wholeSeconds (startedLog path) := by
  have hbackups : (startedEnd.get isSome_startedEnd).daemon.tail.backups path = [] := rfl
  have hkeys : (startedEnd.get isSome_startedEnd).daemon.tail.files.keys = [Daemon.workerLog] := by
    decide +kernel
  have hcontent : (startedEnd.get isSome_startedEnd).daemon.tail.content Daemon.workerLog =
      journal wholeSeconds [started, started] := by
    decide +kernel
  unfold Tail.written startedLog
  rw [hbackups]
  by_cases hpath : path = Daemon.workerLog
  · subst hpath
    rw [if_pos rfl]
    exact hcontent
  · have habsent : (startedEnd.get isSome_startedEnd).daemon.tail.files.lookup path = none := by
      refine AList.lookup_eq_none.mpr fun hmem => hpath ?_
      have hmem' := AList.mem_keys.mp hmem
      rw [hkeys] at hmem'
      exact List.mem_singleton.mp hmem'
    rw [if_neg hpath]
    unfold Tail.content
    rw [habsent]
    rfl

theorem prints_wholeSeconds : wholeSeconds.Prints where
  float _ := .append (Encoder.printable_int _) (JsonText.printable_of_all rfl)
  bytes _ := JsonText.printable_nil

theorem handed_were_logged_started :
    let s := startedEnd.get isSome_startedEnd
    (s.writers 0).handed.flatten.map (·.service) = ["worker"] ∧
      s.daemon.tail.eventsOf Daemon.workerLog = [started] := by
  have hhanded : (((startedEnd.get isSome_startedEnd).writers 0).handed.flatten.map
      (·.service)) = ["worker"] := by
    decide +kernel
  have hfailed : (startedEnd.get isSome_startedEnd).daemon.failed = [] := rfl
  have hunread : (startedEnd.get isSome_startedEnd).daemon.tail.unread Daemon.workerLog = [] := by
    decide +kernel
  have hdecode : ∀ path, ∀ e ∈ startedLog path, Decodes decodeStarted wholeSeconds e := by
    intro path e he now
    unfold startedLog at he
    split at he
    · obtain rfl : e = started := by simpa using he
      exact if_pos rfl
    · exact absurd he List.not_mem_nil
  have hrun : Reach (step decodeStarted twoRoutes fun _ => {})
      (Settled wholeSeconds startedLog fun _ => 1) (start ∅ (fun _ => true) true)
      (startedEnd.get isSome_startedEnd) :=
    Reach.of_runActions (Option.some_get isSome_startedEnd).symm
  have hwritten := written_startedEnd
  refine ⟨hhanded, ?_⟩
  generalize startedEnd.get isSome_startedEnd = s at hfailed hunread hrun hwritten ⊢
  exact ((handed_were_logged prints_wholeSeconds startedLog hdecode (fun _ => 1) hrun hfailed
    fun path => hwritten path ▸ List.prefix_rfl).1 Daemon.workerLog).2 hunread (hwritten _)

end Runner

end ApiTemplate.Telemetry
