import ApiTemplate.Identity.Runs
import ApiTemplate.TxStore.OneShot

/-!
# One-time codes are spent once

Confirmations, password resets and issues run concurrently, and any of them may fail at any
statement and roll back. A code is claimed by `UPDATE … WHERE used_at IS NULL`: `used_at` is a mark
that is set once, whatever the interleaving.
-/

namespace ApiTemplate.Identity

open TxStore

/-- `used_at`, set by `consume_by_id` and by `invalidate_pending`, and by nothing else. -/
def usedAt : OneShot schema ℤ where
  mark r := r.otp?.bind OtpRow.usedAt
  spends
    | .consumeById _ _ => true
    | .invalidatePending _ _ _ _ => true
    | _ => false
  unmarked u r hs hg := by
    cases u with
    | consumeById id nowEpoch =>
      cases r with
      | otp o =>
        simp only [Update.guard, Bool.and_eq_true, beq_iff_eq] at hg
        exact hg.1.2
      | user u => cases hg
      | apiKey k => cases hg
      | blob b => cases hg
    | invalidatePending contentId contentType kind nowEpoch =>
      cases r with
      | otp o =>
        simp only [Update.guard, Bool.and_eq_true, beq_iff_eq] at hg
        exact hg.2
      | user u => cases hg
      | apiKey k => cases hg
      | blob b => cases hg
    | toggleStatus id => cases hs
    | activate id => cases hs
  marked u r hs hg := by
    cases u with
    | consumeById id nowEpoch => cases r <;> first | rfl | cases hg
    | invalidatePending contentId contentType kind nowEpoch => cases r <;> first | rfl | cases hg
    | toggleStatus id => cases hs
    | activate id => cases hs
  set_keeps u r hs := by
    cases u with
    | consumeById id nowEpoch => cases hs
    | invalidatePending contentId contentType kind nowEpoch => cases hs
    | toggleStatus id => cases r <;> rfl
    | activate id => cases r <;> rfl
  patch_keeps p r := by cases r <;> rfl

/-- The runs that claim or retire codes. -/
inductive CodeRun
  | confirmEmail (env : Env) (message : ConfirmEmailCommand)
  | resetPassword (env : Env) (message : ForgotPasswordStep3Command)
  | issue (env : Env) (contentId : Id) (kind : OtpKindEnum) (targetValue : String)

/-- The statements of a run; its result is dropped. -/
def CodeRun.program (b : Bcrypt) : CodeRun → Tx Unit
  | confirmEmail env message => do
    let _ ← ConfirmEmailCommandHandler.call env message
    pure ()
  | resetPassword env message => do
    let _ ← ForgotPasswordStep3CommandHandler.call b env message
    pure ()
  | issue env contentId kind targetValue => withUow do
    let _ ← UserConfirmationService.issue env 0 contentId kind targetValue
    pure ()

/-- A `consume_by_id` has claimed row `i`. -/
def consumes (i : Id) : Deed schema → Bool
  | .hit (.consumeById _ _) j => j == i
  | _ => false

/-- An `invalidate_pending` has retired row `i`. -/
def retires (i : Id) : Deed schema → Bool
  | .hit (.invalidatePending _ _ _ _) j => j == i
  | _ => false

section

variable {τ : Type}

/-- How often the committed runs have claimed row `i`. -/
def consumedCount (i : Id) (log : List (τ × Deed schema)) : ℕ := log.countP fun e => consumes i e.2

/-- How often the committed runs have retired row `i`. -/
def retiredCount (i : Id) (log : List (τ × Deed schema)) : ℕ := log.countP fun e => retires i e.2

theorem spendsRow_eq (i : Id) (d : Deed schema) :
    usedAt.spendsRow i d = (consumes i d || retires i d) := by
  rcases d with u | ⟨u, j⟩
  · rfl
  · cases u with
    | consumeById id nowEpoch =>
      exact (Bool.true_and _).trans ((beq_eq_decide j i).symm.trans (Bool.or_false _).symm)
    | invalidatePending contentId contentType kind nowEpoch =>
      exact (Bool.true_and _).trans (beq_eq_decide j i).symm
    | toggleStatus id => rfl
    | activate id => rfl

theorem retires_eq_false {i : Id} {d : Deed schema} (h : consumes i d = true) :
    retires i d = false := by
  rcases d with u | ⟨u, j⟩
  · rfl
  · cases u with
    | consumeById id nowEpoch => rfl
    | invalidatePending contentId contentType kind nowEpoch => cases h
    | toggleStatus id => rfl
    | activate id => rfl

/-- A committed claim and a committed retirement are both marks. -/
theorem spentLog_eq (i : Id) (log : List (τ × Deed schema)) :
    usedAt.spentLog i log = consumedCount i log + retiredCount i log := by
  unfold OneShot.spentLog consumedCount retiredCount
  simp only [spendsRow_eq]
  induction log with
  | nil => rfl
  | cons e log ih =>
    simp only [List.countP_cons, ih]
    cases hc : consumes i e.2 with
    | true =>
      rw [retires_eq_false hc]
      simp only [Bool.true_or, if_true, Bool.false_eq_true, if_false]
      omega
    | false =>
      simp only [Bool.false_or, Bool.false_eq_true, if_false]
      omega

variable [DecidableEq τ] {b : Bcrypt} {db : Content} {runs : τ → CodeRun}
  {s s' : Sys schema τ Unit}

/-- **Spent once.** In every interleaving of the runs: each row is claimed at most once by runs that
commit; a row that a committed run has retired is claimed in no later state; and a committed
`used_at` stays as it is. -/
theorem spent_once (h : Reachable Sys.step (.start db fun t => (runs t).program b) s)
    (h' : Reachable Sys.step s s') :
    (∀ i, consumedCount i s.log ≤ 1) ∧
      (∀ i, 0 < retiredCount i s.log →
        consumedCount i s'.log = 0 ∧ ∀ t, ∀ d ∈ s'.opened t, consumes i d = false) ∧
      ∀ i o m, s.store.base.row i = some (.otp o) → o.usedAt = some m →
        ∃ o', s'.store.base.row i = some (.otp o') ∧ o'.usedAt = some m := by
  have hinv : usedAt.Holds s := OneShot.holds_reach (usedAt.inv_ofDb db) h
  have hinv' : usedAt.Holds s' := OneShot.holds_reach hinv h'
  refine ⟨fun i => ?_, fun i hretired => ⟨?_, fun t d hd => ?_⟩, fun i o m hrow hused => ?_⟩
  · have hle := hinv.spentLog_le_one i
    rw [spentLog_eq] at hle
    omega
  · have hle := hinv'.spentLog_le_one i
    have hmono : retiredCount i s.log ≤ retiredCount i s'.log :=
      (Sys.log_of_reach h').sublist.countP_le
    rw [spentLog_eq] at hle
    omega
  · have hzero := OneShot.spent_eq_zero_of_reach hinv h' (i := i)
      (by rw [spentLog_eq]; omega) t
    have hnot := List.countP_eq_zero.mp hzero d hd
    rw [spendsRow_eq, Bool.or_eq_true, not_or, Bool.not_eq_true] at hnot
    exact hnot.1
  · obtain ⟨r', hrow', hmark⟩ := OneShot.mark_reach hinv h' hrow hused
    obtain ⟨o', ho', hused'⟩ := Option.bind_eq_some_iff.mp hmark
    rw [Row.otp?_eq_some.mp ho'] at hrow'
    exact ⟨o', hrow', hused'⟩

end

/-! ## A race for one code -/

/-- A confirmation code of Ann. -/
def annsCode : OtpRow where
  id := 1
  otp := "000000"
  contentId := 0
  contentType := .user
  kind := .emailConfirmation
  usedAt := none
  expiresAt := 900
  targetValue := "ann@example.com"
  verified := false
  createdAt := 0

/-- Two confirmations with Ann's code. -/
def raceStart : Sys schema Bool Unit :=
  .start (contentOf [.user ann, .otp annsCode]) fun _ =>
    (CodeRun.confirmEmail (.at 0) ⟨"ann@example.com", "000000"⟩).program .plain

/-- Both read the code; the second begins to claim it while the first holds it, and has to wait. -/
def raceActions : List (Action Bool) :=
  ([true, true, false, false, true, true, false] ++ List.replicate 5 true ++
    List.replicate 5 false).map .exec

/-- The race after both have ended. -/
def raced : Sys schema Bool Unit :=
  (runActions Sys.step (fun _ _ => True) raceStart raceActions).get (by decide)

theorem reachable_raced : Reachable Sys.step raceStart raced :=
  Reach.of_runActions (Option.some_get _).symm

/-- The code is claimed in the race, and never again. -/
theorem spent_once_raced : consumedCount 1 raced.log = 1 ∧ ∀ i, consumedCount i raced.log ≤ 1 :=
  ⟨by decide, (spent_once reachable_raced .refl).1⟩

end ApiTemplate.Identity
