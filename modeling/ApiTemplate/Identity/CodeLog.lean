import ApiTemplate.Identity.Footprints
import ApiTemplate.TxStore.Monitor

/-!
# The log of the codes

`CodeLog` knows, for each owner and kind, the code that was issued last and whether it has been
consumed. A monitor writes it from the statements that are committed, and never looks at the rows.
`Agrees` says what the rows of the codes look like under a log; every handler keeps it, whatever
fails on the way.
-/

namespace ApiTemplate.Identity

open TxStore

/-- A code as it was issued: its row and its digits, the second of the issue call, and whether
`consume_by_id` has claimed it. -/
structure IssuedCode where
  id : Id
  otp : String
  second : ℤ
  consumed : Bool
  deriving DecidableEq

/-- The code of each owner and kind that was issued last. -/
abbrev CodeLog := Id → OtpKindEnum → Option IssuedCode

namespace CodeLog

/-- No code was issued. -/
def empty : CodeLog := fun _ _ => none

def issue (log : CodeLog) (o : OtpRow) (second : ℤ) : CodeLog := fun owner kind =>
  if owner = o.contentId ∧ kind = o.kind then some ⟨o.id, o.otp, second, false⟩ else log owner kind

def consume (log : CodeLog) (id : Id) : CodeLog := fun owner kind =>
  (log owner kind).map fun c => if c.id = id then { c with consumed := true } else c

/-- What a statement does to the log. A code is issued when its row is added, in a call that read
`second` from the clock; it is consumed when `consume_by_id` claims one row. -/
def record (second : ℤ) (log : CodeLog) : Answered schema → CodeLog
  | ⟨.add row _, id⟩ =>
    match row id with
    | .otp o => log.issue o second
    | _ => log
  | ⟨.update (.consumeById id _), rowcount⟩ => if rowcount = 1 then log.consume id else log
  | _ => log

end CodeLog

/-! ## The rows of the codes -/

/-- The row stores a code of this owner and kind. -/
structure CodeOf (db : Content) (owner : Id) (kind : OtpKindEnum) (o : OtpRow) : Prop where
  row_eq : db.row o.id = some (.otp o)
  owner_eq : o.contentId = owner
  kind_eq : o.kind = kind

/-- The row of an issued code. -/
structure IssuedCode.RowIs (c : IssuedCode) (o : OtpRow) : Prop where
  id_eq : o.id = c.id
  otp_eq : o.otp = c.otp
  expiresAt_eq : o.expiresAt = c.second + otpTtlMinutes o.kind * 60
  unused_iff : o.usedAt = none ↔ c.consumed = false
  unverified : o.usedAt = none → o.verified = false

/-- What the rows of an owner and a kind look like when `c` is the code issued last: its stamp is
not after `last`, and all others are used and stamped no later than it. -/
def AgreesAt (last : Micros) (db : Content) (owner : Id) (kind : OtpKindEnum) :
    Option IssuedCode → Prop
  | none => ∀ o, ¬CodeOf db owner kind o
  | some c => ∃ o, CodeOf db owner kind o ∧ c.RowIs o ∧ o.createdAt ≤ last ∧
      ∀ o', CodeOf db owner kind o' → o' = o ∨ o'.usedAt ≠ none ∧ o'.createdAt ≤ o.createdAt

/-- The rows of the codes agree with the log, and none is stamped after `last`. -/
def Agrees (last : Micros) (log : CodeLog) (db : Content) : Prop :=
  ∀ owner kind, AgreesAt last db owner kind (log owner kind)

section

variable {db db' : Content} {owner : Id} {kind : OtpKindEnum} {o o' : OtpRow} {log : CodeLog}
  {last : Micros}

/-- Agreement depends on the rows of the codes only. -/
theorem AgreesAt.congr {c : Option IssuedCode} (h : AgreesAt last db owner kind c)
    (hsame : ∀ o, CodeOf db owner kind o ↔ CodeOf db' owner kind o) :
    AgreesAt last db' owner kind c := by
  cases c with
  | none => exact fun o ho => h o ((hsame o).mpr ho)
  | some c =>
    obtain ⟨o, ho, hrow, hlast, hothers⟩ := h
    exact ⟨o, (hsame o).mp ho, hrow, hlast, fun o' ho' => hothers o' ((hsame o').mpr ho')⟩

theorem Agrees.mono {last' : Micros} (h : Agrees last log db) (hle : last ≤ last') :
    Agrees last' log db := by
  intro owner kind
  have hat := h owner kind
  cases hlog : log owner kind with
  | none =>
    rw [hlog] at hat
    exact hat
  | some c =>
    rw [hlog] at hat
    obtain ⟨o, ho, hrow, hlast, hothers⟩ := hat
    exact ⟨o, ho, hrow, Int.le_trans hlast hle, hothers⟩

/-- No code is stamped after the bound. -/
theorem AgreesAt.createdAt_le {c : Option IssuedCode} (h : AgreesAt last db owner kind c)
    (ho : CodeOf db owner kind o) : o.createdAt ≤ last := by
  cases c with
  | none => exact absurd ho (h o)
  | some c =>
    obtain ⟨oc, -, -, hlast, hothers⟩ := h
    rcases hothers o ho with rfl | ⟨-, hle⟩
    · exact hlast
    · exact Int.le_trans hle hlast

theorem codeOf_congr (h : ∀ i o, db.row i = some (.otp o) ↔ db'.row i = some (.otp o)) :
    CodeOf db owner kind o ↔ CodeOf db' owner kind o :=
  ⟨fun ho => ⟨(h _ _).mp ho.row_eq, ho.owner_eq, ho.kind_eq⟩,
    fun ho => ⟨(h _ _).mpr ho.row_eq, ho.owner_eq, ho.kind_eq⟩⟩

theorem Agrees.congr (h : Agrees last log db)
    (hsame : ∀ i o, db.row i = some (.otp o) ↔ db'.row i = some (.otp o)) : Agrees last log db' :=
  fun owner kind => (h owner kind).congr fun _ => codeOf_congr hsame

theorem Agrees.of_row (h : Agrees last log db) (hrow : db'.row = db.row) : Agrees last log db' :=
  h.congr fun _ _ => by rw [hrow]

/-- Two codes of one identifier are one code. -/
theorem CodeOf.ext {owner' : Id} {kind' : OtpKindEnum} (h : CodeOf db owner kind o)
    (h' : CodeOf db owner' kind' o') (hid : o.id = o'.id) : o = o' := by
  have hrow := h.row_eq
  rw [hid, h'.row_eq] at hrow
  cases hrow
  rfl

/-! ## Bulk updates -/

/-- What a bulk update makes of a code. -/
def Update.onCode (u : Update) (o : OtpRow) : OtpRow :=
  match u with
  | .consumeById id now =>
    if o.id = id ∧ o.usedAt = none ∧ now ≤ o.expiresAt then
      { o with usedAt := some now, verified := true }
    else o
  | .invalidatePending owner _ kind now =>
    if o.contentId = owner ∧ o.kind = kind ∧ o.usedAt = none then { o with usedAt := some now }
    else o
  | _ => o

theorem updated_otp (u : Update) (o : OtpRow) :
    Db.updated (σ := schema) u (.otp o) = .otp (u.onCode o) := by
  unfold Db.updated
  cases u with
  | consumeById id now =>
    simp only [Update.guard, Update.set, Update.onCode, Bool.and_eq_true, beq_iff_eq,
      decide_eq_true_eq, and_assoc, ge_iff_le]
    split <;> rfl
  | invalidatePending owner type kind now =>
    have htype : (o.contentType == type) = true := by
      cases type
      cases o.contentType
      rfl
    simp only [Update.guard, Update.set, Update.onCode, htype, Bool.and_eq_true, beq_iff_eq,
      and_assoc, true_and]
    split <;> rfl
  | toggleStatus id => rfl
  | activate id => rfl

/-- The rows that are no codes stay no codes. -/
theorem otp?_updated (u : Update) (r : Row) :
    Row.otp? (Db.updated (σ := schema) u r) = r.otp?.map u.onCode := by
  cases r with
  | otp o =>
    rw [updated_otp]
    rfl
  | user v =>
    unfold Db.updated
    cases u <;> dsimp only [Update.set] <;> split <;> rfl
  | apiKey k =>
    unfold Db.updated
    cases u <;> rfl
  | blob b =>
    unfold Db.updated
    cases u <;> rfl

theorem onCode_id (u : Update) (o : OtpRow) : (u.onCode o).id = o.id := by
  unfold Update.onCode
  split <;> (try split) <;> rfl

theorem onCode_contentId (u : Update) (o : OtpRow) : (u.onCode o).contentId = o.contentId := by
  unfold Update.onCode
  split <;> (try split) <;> rfl

theorem onCode_kind (u : Update) (o : OtpRow) : (u.onCode o).kind = o.kind := by
  unfold Update.onCode
  split <;> (try split) <;> rfl

theorem onCode_createdAt (u : Update) (o : OtpRow) : (u.onCode o).createdAt = o.createdAt := by
  unfold Update.onCode
  split <;> (try split) <;> rfl

/-- The codes after a bulk update. -/
theorem codeOf_update (u : Update) :
    CodeOf (Db.update (σ := schema) db u) owner kind o ↔
      ∃ o₀, CodeOf db owner kind o₀ ∧ u.onCode o₀ = o := by
  constructor
  · rintro ⟨hrow, howner, hkind⟩
    obtain ⟨r, hr, hset⟩ := Option.map_eq_some_iff.mp hrow
    have hotp := congrArg Row.otp? hset
    rw [otp?_updated] at hotp
    obtain ⟨o₀, ho₀, rfl⟩ := Option.map_eq_some_iff.mp hotp
    rw [Row.otp?_eq_some.mp ho₀, onCode_id] at hr
    exact ⟨o₀, ⟨hr, (onCode_contentId u o₀).symm.trans howner, (onCode_kind u o₀).symm.trans hkind⟩,
      rfl⟩
  · rintro ⟨o₀, ⟨hrow, howner, hkind⟩, rfl⟩
    refine ⟨?_, (onCode_contentId u o₀).trans howner, (onCode_kind u o₀).trans hkind⟩
    rw [Db.update_row, onCode_id, hrow]
    exact congrArg some (updated_otp u o₀)

/-- An update that leaves the codes of an owner and a kind. -/
theorem AgreesAt.update {c : Option IssuedCode} (h : AgreesAt last db owner kind c) {u : Update}
    (hu : ∀ o, CodeOf db owner kind o → u.onCode o = o) :
    AgreesAt last (Db.update (σ := schema) db u) owner kind c := by
  refine h.congr fun o => ?_
  rw [codeOf_update]
  constructor
  · intro ho
    exact ⟨o, ho, hu o ho⟩
  · rintro ⟨o₀, ho₀, rfl⟩
    rw [hu o₀ ho₀]
    exact ho₀

/-! ## Consuming a code -/

/-- A claim that finds its row open. -/
theorem AgreesAt.consumed {c : Option IssuedCode} (h : AgreesAt last db owner kind c)
    {kind' : OtpKindEnum} {owner' : Id} (ho : CodeOf db owner' kind' o) (hused : o.usedAt = none)
    {now : ℤ} (hexp : now ≤ o.expiresAt) :
    AgreesAt last (Db.update (σ := schema) db (.consumeById o.id now)) owner kind
      (c.map fun c => if c.id = o.id then { c with consumed := true } else c) := by
  have hother : ∀ o' : OtpRow, o'.id ≠ o.id → (Update.consumeById o.id now).onCode o' = o' :=
    fun o' hne => if_neg fun hc => hne hc.1
  cases c with
  | none => exact h.update fun o' ho' => absurd ho' (h o')
  | some c =>
    obtain ⟨oc, hoc, hrow, hlast, hothers⟩ := h
    by_cases hid : c.id = o.id
    · -- the claimed row is that of the code issued last
      obtain rfl : oc = o := hoc.ext ho (hrow.id_eq.trans hid)
      have hset : (Update.consumeById oc.id now).onCode oc =
          { oc with usedAt := some now, verified := true } := if_pos ⟨rfl, hused, hexp⟩
      rw [Option.map_some, if_pos hid]
      refine ⟨_, (codeOf_update _).mpr ⟨oc, hoc, hset⟩,
        ⟨hrow.id_eq, hrow.otp_eq, hrow.expiresAt_eq, by simp, by simp⟩, hlast, ?_⟩
      intro o' ho'
      obtain ⟨o₀, ho₀, rfl⟩ := (codeOf_update _).mp ho'
      rcases hothers o₀ ho₀ with rfl | ⟨hused₀, hle⟩
      · exact Or.inl hset
      · have hne : o₀.id ≠ oc.id := by
          intro hc
          obtain rfl := ho₀.ext hoc hc
          exact hused₀ hused
        rw [hother o₀ hne]
        exact Or.inr ⟨hused₀, hle⟩
    · -- it is open, so it is no code of this owner and kind
      have hne : ∀ o', CodeOf db owner kind o' → o'.id ≠ o.id := by
        intro o' ho' hc
        obtain rfl := ho'.ext ho hc
        rcases hothers o' ho' with rfl | ⟨hused', -⟩
        · exact hid hrow.id_eq.symm
        · exact hused' hused
      rw [Option.map_some, if_neg hid]
      refine AgreesAt.update (c := some c) ⟨oc, hoc, hrow, hlast, hothers⟩ fun o' ho' => ?_
      exact hother o' (hne o' ho')

theorem onCode_of_notMem {i : Id} {now : ℤ}
    (h : i ∉ Db.matching (σ := schema) db (.consumeById i now)) (ho : CodeOf db owner kind o) :
    (Update.consumeById i now).onCode o = o := by
  refine if_neg ?_
  rintro ⟨rfl, hused, hexp⟩
  refine h (Db.mem_matching.mpr ⟨_, ho.row_eq, ?_⟩)
  simp [Update.guard, hused, hexp]

/-- **Claims.** `consume_by_id`, with the rows it counts, keeps the agreement. -/
theorem Agrees.consumeById (h : Agrees last log db) (second : ℤ) (i : Id) (now : ℤ) :
    Agrees last (log.record second ⟨.update (.consumeById i now),
        (Db.matching (σ := schema) db (.consumeById i now)).length⟩)
      (Db.update (σ := schema) db (.consumeById i now)) := by
  have hmatch : Db.matching (σ := schema) db (.consumeById i now) =
      if (db.row i).any (Update.guard (.consumeById i now)) then [i] else [] := by
    refine Db.matching_of_rowId db fun r hg => ?_
    cases r with
    | otp o' =>
      simp only [Update.guard, Bool.and_eq_true, beq_iff_eq] at hg
      exact hg.1.1
    | user u => cases hg
    | apiKey k => cases hg
    | blob b => cases hg
  intro owner kind
  cases hany : (db.row i).any (Update.guard (.consumeById i now)) with
  | false =>
    rw [hany] at hmatch
    change AgreesAt last _ owner kind ((if _ = 1 then log.consume i else log) owner kind)
    rw [hmatch, if_neg (by simp)]
    refine (h owner kind).update fun o ho => onCode_of_notMem ?_ ho
    rw [hmatch]
    simp
  | true =>
    rw [hany] at hmatch
    obtain ⟨r, hr, hg⟩ := (Option.any_eq_true _ _).mp hany
    cases r with
    | otp o =>
      simp only [Update.guard, Bool.and_eq_true, beq_iff_eq, decide_eq_true_eq] at hg
      obtain ⟨⟨rfl, hused⟩, hexp⟩ := hg
      change AgreesAt last _ owner kind ((if _ = 1 then log.consume o.id else log) owner kind)
      rw [hmatch, if_pos rfl]
      exact (h owner kind).consumed ⟨hr, rfl, rfl⟩ hused hexp
    | user u => cases hg
    | apiKey k => cases hg
    | blob b => cases hg

end

/-! ## Issuing a code -/

section

variable {db : Content} {owner : Id} {kind : OtpKindEnum} {o o' : OtpRow} {log : CodeLog}
  {last : Micros}

theorem codeOf_put (hnone : db.row o.id = none) :
    CodeOf (Db.put (σ := schema) db (.otp o)) owner kind o' ↔
      o' = o ∧ o.contentId = owner ∧ o.kind = kind ∨ CodeOf db owner kind o' := by
  have hrow : ∀ i, (Db.put (σ := schema) db (.otp o)).row i =
      if i = o.id then some (.otp o) else db.row i := fun i => Function.update_apply _ _ _ i
  constructor
  · rintro ⟨hput, howner, hkind⟩
    rw [hrow] at hput
    split at hput
    · cases hput
      exact Or.inl ⟨rfl, howner, hkind⟩
    · exact Or.inr ⟨hput, howner, hkind⟩
  · rintro (⟨rfl, howner, hkind⟩ | ⟨hold, howner, hkind⟩)
    · exact ⟨(hrow _).trans (if_pos rfl), howner, hkind⟩
    · refine ⟨(hrow _).trans ?_, howner, hkind⟩
      rw [if_neg, hold]
      intro hid
      rw [hid, hnone] at hold
      cases hold

/-- A code that is issued when all earlier ones are used, and stamped no earlier than they. -/
theorem Agrees.issue {second : ℤ} (hnone : db.row o.id = none) (hused : o.usedAt = none)
    (hver : o.verified = false) (hexp : o.expiresAt = second + otpTtlMinutes o.kind * 60)
    (hlast : o.createdAt ≤ last)
    (hold : ∀ o', CodeOf db o.contentId o.kind o' → o'.usedAt ≠ none ∧ o'.createdAt ≤ o.createdAt)
    (hothers : ∀ owner kind, ¬(owner = o.contentId ∧ kind = o.kind) →
      AgreesAt last db owner kind (log owner kind)) :
    Agrees last (log.issue o second) (Db.put (σ := schema) db (.otp o)) := by
  intro owner kind
  unfold CodeLog.issue
  by_cases hkey : owner = o.contentId ∧ kind = o.kind
  · obtain ⟨rfl, rfl⟩ := hkey
    rw [if_pos ⟨rfl, rfl⟩]
    refine ⟨o, (codeOf_put hnone).mpr (Or.inl ⟨rfl, rfl, rfl⟩),
      ⟨rfl, rfl, hexp, iff_of_true hused rfl, fun _ => hver⟩, hlast, fun o' ho' => ?_⟩
    rcases (codeOf_put hnone).mp ho' with ⟨rfl, -⟩ | ho'
    · exact Or.inl rfl
    · exact Or.inr (hold o' ho')
  · rw [if_neg hkey]
    refine (hothers owner kind hkey).congr fun o' => ?_
    rw [codeOf_put hnone]
    constructor
    · exact Or.inr
    · rintro (⟨-, rfl, rfl⟩ | ho')
      · exact absurd ⟨rfl, rfl⟩ hkey
      · exact ho'

end

/-! ## Flushing the session -/

section

variable {db db' : Content} {s : TxStore.Session schema}

theorem otp?_apply (r : Row) : Row.otp? (s.apply r) = r.otp? :=
  TxStore.Session.apply_keeps (σ := schema) (f := Row.otp?)
    (fun p _ r => show Row.otp? (p.applyRow r) = r.otp? by cases r <;> rfl) r

/-- A session without new codes leaves the codes. -/
theorem codes_flush (hnew : ∀ r ∈ s.new, Row.otp? r = none) (hf : db.flush s = .ok db') (i : Id)
    (o : OtpRow) : db.row i = some (.otp o) ↔ db'.row i = some (.otp o) := by
  constructor
  · intro hr
    rw [Db.flush_row_of_some hf hr]
    exact congrArg some (Row.otp?_eq_some.mp (otp?_apply _))
  · intro hr
    cases hrow : db.row i with
    | none =>
      obtain ⟨n, hn, -, happly⟩ := Db.flush_row_of_none hf hrow hr
      have hotp := otp?_apply (s := s) n
      rw [← happly, hnew n hn] at hotp
      cases hotp
    | some r =>
      rw [Db.flush_row_of_some hf hrow] at hr
      have hotp := otp?_apply (s := s) r
      rw [Option.some.inj hr] at hotp
      rw [Row.otp?_eq_some.mp hotp.symm]

end

/-! ## Trials -/

section

variable {last : Micros} {second : ℤ} {log : CodeLog} {st : Trial schema} {db : Content}

/-- What the monitor has made of the statements of a trial. -/
abbrev logs (second : ℤ) (log : CodeLog) (st : Trial schema) : Seen CodeLog :=
  st.seen (CodeLog.record second) log

/-- The committed codes agree with the log. -/
def Logged (last : Micros) (second : ℤ) (log : CodeLog) (st : Trial schema) : Prop :=
  Agrees last (logs second log st).committed st.world.committed

/-- So do the codes that the open transaction sees, and no new code is held back in the session. -/
structure Tracked (last : Micros) (second : ℤ) (log : CodeLog) (st : Trial schema) : Prop where
  logged : Logged last second log st
  view : Agrees last (logs second log st).view st.world.view
  new : ∀ r ∈ st.world.session.new, Row.otp? r = none

/-- Nothing is held back in the session. -/
structure Blank (last : Micros) (second : ℤ) (log : CodeLog) (st : Trial schema) : Prop
    extends Tracked last second log st where
  session_eq : st.world.session = {}

/-- The codes agree with the log if the transaction is committed now. -/
structure Ready (last : Micros) (second : ℤ) (log : CodeLog) (st : Trial schema) : Prop where
  logged : Logged last second log st
  flushed : ∀ db, st.world.view.flush st.world.session = .ok db →
    Agrees last (logs second log st).view db

/-- The statements that keep the agreement wherever they stand. -/
def LeavesCodes : Stmt schema → Prop
  | .update (.invalidatePending _ _ _ _) => False
  | .add row _ => ∀ i, Row.otp? (row i) = none
  | _ => True

theorem blank_start (h : Agrees last log db) : Blank last second log (.start db) where
  logged := h
  view := h
  new r hr := by cases hr
  session_eq := rfl

theorem Tracked.ready (h : Tracked last second log st) : Ready last second log st :=
  ⟨h.logged, fun _ hf => h.view.congr (codes_flush h.new hf)⟩

theorem Logged.effect {s : Stmt schema} (h : Logged last second log st) (hs : s.isCommit = false) :
    Logged last second log (st.effect s) := by
  obtain ⟨hseen, hrow⟩ := Trial.effect_of_noCommit (CodeLog.record second) log st hs
  unfold Logged logs
  rw [hseen]
  exact h.of_row hrow

/-- A commit of a transaction whose codes agree with the log. -/
theorem Ready.commit (h : Ready last second log st) :
    Logged last second log (st.effect .commit) := by
  unfold Logged logs
  rcases Trial.effect_commit_cases (CodeLog.record second) log st with
    ⟨db, hf, hseen, hworld⟩ | ⟨hseen, hworld⟩
  · rw [hseen, hworld]
    exact h.flushed db hf
  · rw [hseen, hworld]
    exact h.logged

theorem Tracked.update (h : Tracked last second log st) {u : schema.Update}
    (hu : LeavesCodes (.update u)) :
    Agrees last (logs second log (st.effect (.update u))).view
      (st.effect (.update u)).world.view := by
  unfold logs
  rw [Trial.seen_effect_ok rfl]
  cases u with
  | consumeById i now => exact h.view.consumeById second i now
  | invalidatePending owner type kind now => exact hu.elim
  | toggleStatus i => exact fun owner kind => (h.view owner kind).update fun _ _ => rfl
  | activate i => exact fun owner kind => (h.view owner kind).update fun _ _ => rfl

/-- A row that is no code is not recorded. -/
theorem Tracked.add (h : Tracked last second log st) {row : ℕ → schema.Row}
    {keyed : ∀ i, (row i).id = i} (hrow : ∀ i, Row.otp? (row i) = none) :
    Agrees last (logs second log (st.effect (.add row keyed))).view
      (st.effect (.add row keyed)).world.view := by
  unfold logs
  rw [Trial.seen_effect_ok rfl]
  change Agrees last (CodeLog.record second _ ⟨.add row keyed, st.world.view.next⟩) _
  have hno := hrow st.world.view.next
  unfold CodeLog.record
  dsimp only
  split
  · rename_i o hrow
    rw [hrow] at hno
    cases hno
  · exact h.view.of_row rfl

/-- A flush and a commit leave what is recorded; they show the flushed session or nothing. -/
theorem Tracked.settle (h : Tracked last second log st) {st' : Trial schema}
    (hlogged : Logged last second log st')
    (hseen : (logs second log st').view = (logs second log st).view)
    (hworld : (∃ db, st.world.view.flush st.world.session = .ok db ∧ st'.world.view = db ∧
      st'.world.session = {}) ∨ st'.world = st.world) : Tracked last second log st' := by
  rcases hworld with ⟨db, hf, hview, hsession⟩ | hworld
  · refine ⟨hlogged, ?_, ?_⟩
    · rw [hseen, hview]
      exact h.view.congr (codes_flush h.new hf)
    · rw [hsession]
      exact fun r hr => by cases hr
  · refine ⟨hlogged, ?_, ?_⟩
    · rw [hseen, hworld]
      exact h.view
    · rw [hworld]
      exact h.new

/-- **Statements.** All statements but those of `issue` keep the agreement. -/
theorem Tracked.effect {s : Stmt schema} (h : Tracked last second log st) (hs : LeavesCodes s) :
    Tracked last second log (st.effect s) := by
  cases s with
  | query | assign | emit =>
    refine ⟨h.logged.effect rfl, ?_, h.new⟩
    unfold logs
    rw [Trial.seen_effect_ok rfl]
    exact h.view
  | update u => exact ⟨h.logged.effect rfl, h.update hs, h.new⟩
  | add row keyed =>
    refine ⟨h.logged.effect rfl, h.add hs, fun r hr => ?_⟩
    rcases List.mem_append.mp hr with hr | hr
    · exact h.new r hr
    · rw [List.mem_singleton.mp hr]
      exact hs _
  | flush =>
    rcases Trial.effect_flush_cases (CodeLog.record second) log st with
      ⟨db, hf, hseen, hworld⟩ | ⟨hseen, hworld⟩
    · exact h.settle (h.logged.effect rfl) (congrArg Seen.view hseen)
        (.inl ⟨db, hf, by rw [hworld], by rw [hworld]⟩)
    · exact h.settle (h.logged.effect rfl) (congrArg Seen.view hseen) (.inr hworld)
  | commit =>
    rcases Trial.effect_commit_cases (CodeLog.record second) log st with
      ⟨db, hf, hseen, hworld⟩ | ⟨hseen, hworld⟩
    · have hview : (logs second log (st.effect .commit)).view = (logs second log st).view := by
        rw [logs, hseen]
      exact h.settle h.ready.commit hview (.inl ⟨db, hf, by rw [hworld], by rw [hworld]⟩)
    · exact h.settle h.ready.commit (congrArg Seen.view hseen) (.inr hworld)
  | rollback =>
    refine ⟨h.logged.effect rfl, ?_, fun r hr => by cases hr⟩
    unfold logs
    rw [Trial.seen_effect_ok rfl]
    exact h.logged.of_row rfl

theorem Tracked.skip (h : Tracked last second log st) : Tracked last second log st.skip :=
  ⟨h.logged, h.view, h.new⟩

end

/-! ## Bodies that issue a code -/

section

variable {last : Micros} {second : ℤ} {log : CodeLog} {st : Trial schema} {α : Type}

theorem Blank.query (h : Blank last second log st) {s : Stmt schema} (hs : s.isQuery = true) :
    Blank last second log (st.effect s) := by
  cases s with
  | query q => exact ⟨h.toTracked.effect trivial, h.session_eq⟩
  | update | add | assign | emit | flush | commit | rollback => cases hs

theorem Blank.skip (h : Blank last second log st) : Blank last second log st.skip :=
  ⟨h.toTracked.skip, h.session_eq⟩

theorem body_blank_reads {p : Tx α} (hp : ReadsOnly p) :
    Body (Blank last second log) p fun _ st => Blank last second log st :=
  ⟨noCommit_of_readsOnly hp, .of_only hp (fun _ _ hs h => h.query hs) fun _ h => h.skip⟩

theorem body_ready_announce (events : List DomainEvent) (a : α) :
    Body (Ready last second log) (do
      publishMany events
      pure a) fun _ st => Ready last second log st := by
  refine .bind ⟨noCommit_publishMany events, ?_⟩ fun _ => .done fun _ h => h
  refine .of_only (A := fun s => ∃ event, s = .emit event)
    (only_publishMany (fun event => ⟨event, rfl⟩) events) ?_ fun _ h => ⟨h.logged, h.flushed⟩
  rintro s st ⟨event, rfl⟩ h
  refine ⟨h.logged.effect rfl, ?_⟩
  unfold logs
  rw [Trial.seen_effect_ok rfl]
  exact h.flushed

theorem body_blank_refuse (e : List AppExceptionDetail) :
    Body (Blank last second log) (do
      rollback
      pure (.error e) : Tx (ResultDetailed α)) fun _ st => Ready last second log st := by
  refine .bind (.lift (s := .rollback) rfl fun st _ h _ => ?_) fun _ => .done fun _ h => h
  exact (h.toTracked.effect (s := .rollback) trivial).ready

/-- Between the two writes of `issue`: the codes of this owner and kind are all used, and those of
others agree with the log. -/
structure Retired (last : Micros) (second : ℤ) (log : CodeLog) (owner : Id) (kind : OtpKindEnum)
    (st : Trial schema) : Prop where
  logged : Logged last second log st
  session_eq : st.world.session = {}
  old : ∀ o, CodeOf st.world.view owner kind o → o.usedAt ≠ none ∧ o.createdAt ≤ last
  others : ∀ owner' kind', ¬(owner' = owner ∧ kind' = kind) →
    AgreesAt last st.world.view owner' kind' ((logs second log st).view owner' kind')

theorem Blank.retire (h : Blank last second log st) (owner : Id) (kind : OtpKindEnum) (now : ℤ) :
    Retired last second log owner kind
      (st.effect (.update (.invalidatePending owner .user kind now))) := by
  refine ⟨h.logged.effect rfl, h.session_eq, fun o ho => ?_, fun owner' kind' hkey => ?_⟩
  · obtain ⟨o₀, ho₀, rfl⟩ := (codeOf_update _).mp ho
    refine ⟨?_, (onCode_createdAt _ o₀).trans_le ((h.view owner kind).createdAt_le ho₀)⟩
    unfold Update.onCode
    dsimp only
    split
    · simp
    · rename_i hc
      exact fun hnone => hc ⟨ho₀.owner_eq, ho₀.kind_eq, hnone⟩
  · unfold logs
    rw [Trial.seen_effect_ok rfl]
    refine (h.view owner' kind').update fun o ho => if_neg ?_
    rintro ⟨howner, hkind, -⟩
    exact hkey ⟨ho.owner_eq.symm.trans howner, ho.kind_eq.symm.trans hkind⟩

theorem Retired.issue {env : Env} {data : OtpCreateDTO} {keyed : ∀ i, Row.id (.otp
      (OtpOrmRepository.row env data i)) = i}
    (h : Retired env.stamp second log data.contentId data.kind st) (hver : data.verified = false)
    (hexp : data.expiresAt = second + otpTtlMinutes data.kind * 60) :
    Ready env.stamp second log
      (st.effect (.add (fun id => Row.otp (OtpOrmRepository.row env data id)) keyed)) := by
  refine ⟨h.logged.effect rfl, fun db hf => ?_⟩
  unfold logs
  rw [Trial.seen_effect_ok rfl]
  have hsession : (st.effect (.add (fun id => Row.otp (OtpOrmRepository.row env data id))
      keyed)).world.session = { new := [.otp (OtpOrmRepository.row env data st.world.view.next)] } := by
    change TxStore.Session.mk (st.world.session.new ++ [_]) st.world.session.patches = _
    rw [h.session_eq]
    rfl
  rw [hsession, Db.flush_new] at hf
  obtain ⟨hnone, rfl⟩ := Db.insert_eq_ok hf
  -- the identifier was taken out of circulation, which leaves the rows
  have hsame : ∀ {owner kind o}, CodeOf st.world.view owner kind o ↔
      CodeOf (st.world.view.reserve (st.world.view.next + 1)) owner kind o :=
    codeOf_congr fun _ _ => Iff.rfl
  exact Agrees.issue hnone rfl hver hexp (Int.le_refl _) (fun o ho => h.old o (hsame.mpr ho))
    fun owner kind hkey => (h.others owner kind hkey).congr fun _ => hsame

/-- **Issue.** -/
theorem body_blank_issue (env : Env) (n : ℕ) (owner : Id) (kind : OtpKindEnum) (target : String)
    (hsecond : second = epoch (env.clock n)) :
    Body (Blank env.stamp second log) (UserConfirmationService.issue env n owner kind target)
      fun r st => match r with
        | .error _ => Blank env.stamp second log st
        | .ok _ => Ready env.stamp second log st := by
  refine .bind (body_blank_reads (readsOnly_hasRecentIssue _ _ _ _ _)) fun recent => ?_
  cases recent with
  | true => exact .done fun _ h => h
  | false =>
    refine .bind (Q := fun _ => Retired env.stamp second log owner kind) ?_ fun _ => ?_
    · exact .bind (.lift rfl fun st _ h _ => h.retire _ _ _) fun _ => .done fun _ h => h
    refine .bind (Q := fun _ => Ready env.stamp second log) ?_ fun _ => .done fun _ h => h
    refine .bind (.lift rfl fun st _ h _ => Retired.issue h rfl ?_) fun _ => .done fun _ h => h
    rw [hsecond]

end

/-! ## The handlers -/

section

variable {d : Deployment} {env : Env} {faults : Faults schema} {log : CodeLog} {st : Trial schema}
  {α : Type}

/-- A unit of work whose body keeps the agreement up to its end. -/
theorem logged_withUow {second : ℤ} {body : Tx α}
    (hbody : Body (Blank last second log) body fun _ st => Ready last second log st)
    (h : Blank last second log st) :
    Logged last second log (Trial.run faults (withUow body) st).2 :=
  hbody.withUow (fun _ _ hs h => h.effect hs) (fun _ h => h) (fun _ h _ => h.commit) h h.logged

theorem logged_of_leavesCodes {second : ℤ} {p : Tx α} (hp : p.Only LeavesCodes)
    (h : Blank last second log st) : Logged last second log (Trial.run faults p st).2 := by
  refine (hp.run_invariant (P := Tracked last second log) ?_ h.toTracked).logged
  intro s st hs h
  rcases Trial.exec_state faults s st with he | he
  · rw [he]
    exact h.effect hs
  · rw [he]
    exact h.skip

theorem common_leavesCodes : Common LeavesCodes :=
  ⟨fun _ => trivial, fun _ => trivial, trivial, trivial⟩

theorem body_blank_register {second : ℤ} (b : Bcrypt) (userName : String → Option String)
    (message : RegisterCommand)
    (hsecond : second = epoch (env.clock 1)) :
    Body (Blank env.stamp second log) (do
      match ← UserRegistrationService.register b userName env message with
      | .error e => do
        rollback
        pure (.error e)
      | .ok user => do
        publishMany user.events
        pure (.ok ()) : Tx (ResultDetailed Unit)) fun _ st => Ready env.stamp second log st := by
  refine .bind (Q := fun r st => match r with
    | .error _ => Blank env.stamp second log st
    | .ok _ => Ready env.stamp second log st) ?_ fun registered => ?_
  · refine .bind (.ofExcept _) fun param => .bind (.ofExcept _) fun user => ?_
    refine .bind (Q := fun _ => Tracked env.stamp second log) ?_ fun user => ?_
    · refine .bind (.lift rfl fun st _ h _ => ?_) fun _ => .done fun _ h => h
      exact h.2.2.toTracked.effect fun _ => rfl
    refine .bind (Q := fun _ => Blank env.stamp second log) (.lift rfl fun st _ h hflush => ?_)
      fun _ => ?_
    · refine ⟨h.effect trivial, ?_⟩
      rcases World.exec_flush_cases st.world with ⟨db, -, hc⟩ | ⟨e, -, hc⟩
      · exact congrArg (fun x : Except Exn Unit × World schema => x.2.session) hc
      · rw [hc] at hflush
        cases hflush
    refine .bind (body_blank_issue env 1 _ _ _ hsecond) fun issued => ?_
    cases issued with
    | error e => exact .done fun _ h => h
    | ok code => exact .bind (.ofExcept _) fun user => .done fun _ h => h.2
  · cases registered with
    | error e => exact body_blank_refuse e
    | ok user => exact body_ready_announce _ _

/-- The reading of the clock that `issue` takes in the handler of a command. -/
def Command.issueReading : Command → ℕ
  | .register _ => 1
  | _ => 0

theorem logged_register {second : ℤ} (b : Bcrypt) (userName : String → Option String)
    (message : RegisterCommand)
    (hsecond : second = epoch (env.clock 1)) (h : Blank env.stamp second log st) :
    Logged env.stamp second log
      (Trial.run faults (RegisterCommandHandler.call b userName env message) st).2 := by
  have hvalid : Blank env.stamp second log
      (Trial.run faults (RegisterValidator.call message) st).2 := by
    refine (readsOnly_registerValidator message).run_invariant (P := Blank env.stamp second log) ?_ h
    intro s st hs h
    rcases Trial.exec_state faults s st with he | he
    · rw [he]
      exact h.query hs
    · rw [he]
      exact h.skip
  unfold RegisterCommandHandler.call
  rw [Trial.run, Program.run_bind]
  rcases hr : Program.run (Trial.exec faults) (RegisterValidator.call message) st with ⟨r, st₁⟩
  rw [Trial.run, hr] at hvalid
  rcases r with e | e | u
  · exact hvalid.logged
  · exact hvalid.logged
  · exact logged_withUow (body_blank_register b userName message hsecond) hvalid

theorem logged_resendEmailConfirmation {second : ℤ} (message : ResendEmailConfirmationCommand)
    (hsecond : second = epoch (env.clock 0)) (h : Blank env.stamp second log st) :
    Logged env.stamp second log
      (Trial.run faults (ResendEmailConfirmationCommandHandler.call env message) st).2 := by
  refine logged_withUow (.bind (body_blank_reads (readsOnly_getAggregateForUpdateByEmail _))
    fun found => ?_) h
  cases found with
  | none => exact .done fun _ h => h.toTracked.ready
  | some user =>
    dsimp only
    split
    · exact .done fun _ h => h.toTracked.ready
    refine .bind (body_blank_issue env 0 _ _ _ hsecond) fun issued => ?_
    cases issued with
    | error e => exact body_blank_refuse e
    | ok code =>
      refine .bind (.ofExcept _) fun user => .mono (fun _ h => h.2) (body_ready_announce _ _) ?_
      exact fun _ _ h => h

theorem logged_forgotPasswordStep1 {second : ℤ} (message : ForgotPasswordStep1Command)
    (hsecond : second = epoch (env.clock 0)) (h : Blank env.stamp second log st) :
    Logged env.stamp second log
      (Trial.run faults (ForgotPasswordStep1CommandHandler.call env message) st).2 := by
  refine logged_withUow (.bind (body_blank_reads (readsOnly_getAggregateForUpdateByEmail _))
    fun found => ?_) h
  cases found with
  | none => exact .done fun _ h => h.toTracked.ready
  | some user =>
    refine .bind (Q := fun r st => match r with
      | .error _ => Blank env.stamp second log st
      | .ok _ => Ready env.stamp second log st)
      (.bind (body_blank_issue env 0 _ _ _ hsecond) fun issued => ?_) fun issued => ?_
    · cases issued <;> exact .done fun _ h => h
    cases issued with
    | error e => exact body_blank_refuse e
    | ok user => exact body_ready_announce _ _

/-- **Handlers.** Every handler keeps the agreement, whatever fails on the way. -/
theorem logged_handler (c : Command) {second : ℤ}
    (hsecond : second = epoch (env.clock c.issueReading)) (h : Blank env.stamp second log st) :
    Logged env.stamp second log (Trial.run faults (c.handler d env) st).2 := by
  have hplain := common_leavesCodes
  cases c with
  | register message => exact logged_register d.bcrypt d.userName message hsecond h
  | resendEmailConfirmation message => exact logged_resendEmailConfirmation message hsecond h
  | forgotPasswordStep1 message => exact logged_forgotPasswordStep1 message hsecond h
  | confirmEmail message =>
    exact logged_of_leavesCodes (hplain.only_confirmEmail env (fun _ _ => trivial)
      (fun _ => trivial) message) h
  | login message =>
    exact logged_of_leavesCodes (hplain.uow (hplain.reads (readsOnly_login _ _ _ _ _ _))) h
  | refreshToken message =>
    exact logged_of_leavesCodes (hplain.uow (hplain.reads (readsOnly_refresh _ _ _ _))) h
  | forgotPasswordStep2 message => exact logged_of_leavesCodes (hplain.only_step2 d env message) h
  | forgotPasswordStep3 message =>
    exact logged_of_leavesCodes (hplain.only_step3 d env (fun _ _ => trivial) (fun _ _ => trivial)
      message) h
  | changePassword userId message =>
    exact logged_of_leavesCodes (hplain.only_changePassword d env (fun _ _ => trivial) userId message) h
  | userUpdateMe userId message =>
    exact logged_of_leavesCodes (hplain.only_userUpdateMe d (fun _ _ => trivial) userId message) h
  | userToggleStatus message => exact logged_of_leavesCodes (hplain.only_userToggleStatus trivial) h

end

end ApiTemplate.Identity
